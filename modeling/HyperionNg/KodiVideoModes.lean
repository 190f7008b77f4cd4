import HyperionNg.JsonClientConnection
import HyperionNg.KODIVideoChecker
import HyperionNg.Library.Execution

/-! The video mode the grabbers were last told, and the one the checker
remembers. A new video is announced as 2D past `setVideoMode`, and a lost
connection forgets the mode without telling the grabbers. -/

namespace HyperionNg

open Library.Execution

namespace KODIVideoChecker

def grabbers (c : KODIVideoChecker) : VideoMode := c.videoModes.getLast?.getD .video2D

/-- What is emitted and what is remembered of the video mode. -/
def video (c : KODIVideoChecker) : List VideoMode × VideoMode :=
  (c.videoModes, c.previousVideoMode)

def InStep (c : KODIVideoChecker) : Prop := c.grabbers = c.previousVideoMode

def StartsVideo (doc : QJsonObject) : Prop :=
  (doc.get "id").toInt 0 = 666 ∧ ∃ player rest, doc.get "result" = .array (player :: rest)

variable {qt : QtText} {c c' : KODIVideoChecker} {doc : QJsonObject}

theorem inStep_congr (same : c'.video = c.video) : c'.InStep ↔ c.InStep := by
  obtain ⟨modes, previous⟩ := Prod.ext_iff.mp same
  simp only [video] at modes previous
  rw [InStep, InStep, grabbers, grabbers, modes, previous]

@[simp] theorem write_video (request : Request) : (c.write request).video = c.video := rfl

@[simp] theorem setGrabbingMode_video (mode : GrabbingMode) :
    (c.setGrabbingMode mode).video = c.video := by
  unfold setGrabbingMode
  split_ifs <;> rfl

@[simp] theorem grab_video (grab : Bool) (mode : GrabbingMode) :
    (c.grab grab mode).video = c.video := setGrabbingMode_video _

@[simp] theorem playing_video (grab : Bool) (mode : GrabbingMode) :
    (c.playing grab mode).video = c.video := by
  unfold playing
  split_ifs <;> exact grab_video _ _

@[simp] theorem notedSpeed_video : (c.notedSpeed doc).video = c.video := by
  simp only [notedSpeed]
  split_ifs <;> rfl

theorem setVideoMode_inStep (before : c.InStep) (mode : VideoMode) :
    (c.setVideoMode mode).InStep := by
  unfold setVideoMode
  split_ifs
  · exact before
  · simp [InStep, grabbers, emitVideoMode]

theorem suppressed_iff (mode : VideoMode) :
    (c.setVideoMode mode).videoModes = c.videoModes ↔ mode = c.previousVideoMode := by
  unfold setVideoMode
  split_ifs with same
  · exact iff_of_true rfl same
  · exact iff_of_false (by simp [emitVideoMode]) same

theorem activePlayer_video (player : QJsonObject) :
    (c.activePlayer player).video = (c.videoModes ++ [.video2D], c.previousVideoMode) := by
  simp only [activePlayer]
  split_ifs
  · rfl
  · exact (write_video _).trans (playing_video _ _)
  · exact playing_video _ _
  · exact playing_video _ _
  · rfl

theorem activePlayers_inStep_iff (before : c.InStep) :
    (c.activePlayers doc).InStep ↔
      ((∃ player rest, doc.get "result" = .array (player :: rest)) →
        c.previousVideoMode = .video2D) := by
  unfold activePlayers
  split
  · next player rest found =>
    have after := activePlayer_video (c := c) player.toObject
    obtain ⟨modes, previous⟩ := Prod.ext_iff.mp after
    simp only [video] at modes previous
    simp only [InStep, grabbers, modes, previous, List.getLast?_append, List.getLast?_singleton,
      Option.some_or, Option.getD_some, found]
    exact ⟨fun same _ => same.symm, fun same => (same ⟨player, rest, rfl⟩).symm⟩
  · next none =>
    rw [inStep_congr (grab_video _ _)]
    refine iff_of_true before ?_
    rintro ⟨player, rest, found⟩
    exact absurd found (none player rest)

theorem playingItem_inStep (before : c.InStep) : (c.playingItem qt doc).InStep := by
  simp only [playingItem]
  split_ifs
  · exact (inStep_congr (write_video _)).mpr before
  · exact setVideoMode_inStep before _
  · exact setVideoMode_inStep before _
  · exact setVideoMode_inStep before _
  · exact (inStep_congr (grab_video _ _)).mpr before

theorem stereoscopicMode_inStep (before : c.InStep) : (c.stereoscopicMode doc).InStep := by
  simp only [stereoscopicMode]
  split_ifs
  · exact setVideoMode_inStep before _
  · exact setVideoMode_inStep before _
  · exact before
  · exact (inStep_congr (grab_video _ _)).mpr before

private theorem screensaver_video : (c.screensaver doc).video = c.video := by
  simp only [screensaver]
  split_ifs <;> simp

private theorem version_video : (c.version doc).video = c.video := by
  simp only [version]
  split_ifs
  · rfl
  · exact grab_video _ _

private theorem playbackState_video : (c.playbackState doc).video = c.video := by
  simp only [playbackState]
  split_ifs
  · rfl
  · exact grab_video _ _

theorem reply_inStep_iff (before : c.InStep) :
    (c.reply qt doc).InStep ↔ (StartsVideo doc → c.previousVideoMode = .video2D) := by
  have other {after : KODIVideoChecker} (h : after.InStep) (id : (doc.get "id").toInt 0 ≠ 666) :
      after.InStep ↔ (StartsVideo doc → c.previousVideoMode = .video2D) :=
    iff_of_true h fun starts => absurd starts.1 id
  unfold reply
  split
  · next id =>
    rw [activePlayers_inStep_iff before]
    exact ⟨fun h starts => h starts.2, fun h player => h ⟨id, player⟩⟩
  · next id => exact other (playingItem_inStep before) (by rw [id]; decide)
  · next id => exact other ((inStep_congr screensaver_video).mpr before) (by rw [id]; decide)
  · next id => exact other (stereoscopicMode_inStep before) (by rw [id]; decide)
  · next id => exact other ((inStep_congr version_video).mpr before) (by rw [id]; decide)
  · next id => exact other ((inStep_congr playbackState_video).mpr before) (by rw [id]; decide)
  · next id _ _ _ _ _ => exact other before id

theorem ite_inStep {p : Prop} [Decidable p] (yes : c.InStep) (no : c'.InStep) :
    (if p then c else c').InStep := by
  split_ifs
  · exact yes
  · exact no

theorem notified_inStep (before : c.InStep) : (c.notified doc).InStep := by
  have keeps {after : KODIVideoChecker} (same : after.video = c.video) : after.InStep :=
    (inStep_congr same).mpr before
  unfold notified
  refine ite_inStep (keeps ?_) (ite_inStep ?_ (ite_inStep (keeps ?_) (ite_inStep (keeps ?_)
    (ite_inStep (keeps ?_) (ite_inStep (keeps ?_) (ite_inStep ?_ before))))))
  · simp
  · exact setVideoMode_inStep (keeps (grab_video _ _)) _
  · simp
  · simp
  · simp
  · simp
  · exact ite_inStep (keeps (by simp)) (keeps (by simp))

theorem StartsVideo.contains_id (starts : StartsVideo doc) : doc.contains "id" = true := by
  rw [QJsonObject.contains, Option.isSome_iff_ne_none]
  intro none
  have id := starts.1
  rw [QJsonObject.get, none] at id
  exact absurd id (by decide)

theorem handle_inStep_iff (before : c.InStep) :
    (c.handle qt doc).InStep ↔ (StartsVideo doc → c.previousVideoMode = .video2D) := by
  unfold handle
  split_ifs with id method
  · exact reply_inStep_iff before
  · exact iff_of_true (notified_inStep before) fun starts => absurd starts.contains_id id
  · exact iff_of_true before fun starts => absurd starts.contains_id id

theorem receiveReply_inStep_iff (before : c.InStep) (qtreply : List UInt8) :
    (c.receiveReply qt qtreply).InStep ↔
      ((∃ doc, qt.fromJson qtreply = some (.object doc) ∧ StartsVideo doc) →
        c.previousVideoMode = .video2D) := by
  unfold receiveReply
  split
  · next doc parsed =>
    rw [handle_inStep_iff before]
    constructor
    · rintro h ⟨doc', parsed', starts⟩
      obtain rfl := Json.object.inj (Option.some.inj (parsed.symm.trans parsed'))
      exact h starts
    · exact fun h starts => h ⟨doc, parsed, starts⟩
  · next none =>
    refine iff_of_true before ?_
    rintro ⟨doc, parsed, _⟩
    exact absurd parsed (none doc)

theorem disconnected_inStep_iff (before : c.InStep) :
    c.disconnected.InStep ↔ c.previousVideoMode = .video2D := by
  rw [InStep] at before
  exact ⟨fun same => before.symm.trans same, fun same => before.trans same⟩

end KODIVideoChecker

structure KodiSession where
  checker : KODIVideoChecker
  since : Nat := 0

namespace KodiSession

open KODIVideoChecker (QtText StartsVideo)

inductive Event
  | reply (qtreply : List UInt8)
  | connected
  | disconnected
deriving DecidableEq, Repr

def event (qt : QtText) (s : KodiSession) : Event → KodiSession
  | .reply qtreply => { s with checker := s.checker.receiveReply qt qtreply }
  | .connected =>
    { checker := s.checker.connected
      since := s.checker.videoModes.length }
  | .disconnected => { s with checker := s.checker.disconnected }

def step (qt : QtText) (s : KodiSession) (e : Event) : Except Empty KodiSession :=
  .ok (s.event qt e)

/-- A mode emitted since the connection began is the one remembered, and a
request for a mode emits nothing only if the grabbers are in it. -/
structure Agrees (s : KodiSession) : Prop where
  remembered : ∀ mode, (s.checker.videoModes.drop s.since).getLast? = some mode →
    mode = s.checker.previousVideoMode
  suppressed : ∀ mode, (s.checker.setVideoMode mode).videoModes = s.checker.videoModes →
    s.checker.grabbers = mode

/-- A video starts, or the connection is lost, in 2D. -/
def Meets (qt : QtText) (s : KodiSession) : Event → Prop
  | .reply qtreply => (∃ doc, qt.fromJson qtreply = some (.object doc) ∧ StartsVideo doc) →
      s.checker.previousVideoMode = .video2D
  | .connected => True
  | .disconnected => s.checker.previousVideoMode = .video2D

variable {qt : QtText} {s : KodiSession}

theorem agrees_iff_inStep : s.Agrees ↔ s.checker.InStep := by
  constructor
  · exact fun agrees => agrees.suppressed _ ((KODIVideoChecker.suppressed_iff _).mpr rfl)
  · intro same
    refine ⟨fun mode last => ?_, fun mode unchanged => ?_⟩
    · rw [List.getLast?_drop] at last
      split_ifs at last
      rw [← same, KODIVideoChecker.grabbers, last, Option.getD_some]
    · exact same.trans ((KODIVideoChecker.suppressed_iff mode).mp unchanged).symm

theorem event_inStep_iff (before : s.checker.InStep) (e : Event) :
    (s.event qt e).checker.InStep ↔ s.Meets qt e := by
  cases e with
  | reply qtreply => exact KODIVideoChecker.receiveReply_inStep_iff before qtreply
  | connected => exact iff_of_true before trivial
  | disconnected => exact KODIVideoChecker.disconnected_inStep_iff before

/-- The checker and the grabbers agree throughout exactly the runs whose videos
start, and whose connections end, in 2D. -/
theorem agrees_throughout_iff (qt : QtText)
    (grabVideo grabPhoto grabAudio grabMenu grabPause grabScreensaver : Bool)
    (events : List Event) :
    Throughout (step qt) Agrees
        ⟨.create grabVideo grabPhoto grabAudio grabMenu grabPause grabScreensaver, 0⟩ events ↔
      Along (step qt) (Meets qt)
        ⟨.create grabVideo grabPhoto grabAudio grabMenu grabPause grabScreensaver, 0⟩ events := by
  have start : Agrees
      ⟨.create grabVideo grabPhoto grabAudio grabMenu grabPause grabScreensaver, 0⟩ :=
    agrees_iff_inStep.mpr rfl
  rw [throughout_iff_along (I := fun _ => True) (Q := Meets qt) (fun _ _ _ _ _ => trivial) ?_
    trivial start]
  · exact ⟨Along.imp fun s e meets => meets _ rfl, Along.imp fun s e meets _ _ => meets⟩
  · intro s e t _ agrees stepped
    obtain rfl := Except.ok.inj stepped
    rw [agrees_iff_inStep] at agrees ⊢
    exact event_inStep_iff agrees e

/-- A player that answers with a video, and then with a mode of two halves. -/
def players : List UInt8 :=
  ascii "\x7b\"id\":666,\"jsonrpc\":\"2.0\"," ++
    ascii "\"result\":[\x7b\"playerid\":1,\"type\":\"video\"\x7d]\x7d"

def splitVertical : List UInt8 :=
  ascii ("\x7b\"id\":669,\"jsonrpc\":\"2.0\",\"result\":\x7b\"stereoscopicmode\":" ++
    "\x7b\"label\":\"Nebeneinander\",\"mode\":\"split_vertical\"\x7d\x7d\x7d")

/-- Qt on these two texts. -/
def parsed : QtText where
  fromJson text := [(players, Json.object [("id", .double 666), ("jsonrpc", .string "2.0"),
      ("result", .array [.object [("playerid", .double 1), ("type", .string "video")]])]),
    (splitVertical, Json.object [("id", .double 669), ("jsonrpc", .string "2.0"),
      ("result", .object [("stereoscopicmode", .object
        [("label", .string "Nebeneinander"), ("mode", .string "split_vertical")])])])].lookup text
  contains text part := decide (part.toLower.toList <:+: text.toLower.toList)

/-- The second video starts in 2D while the first one's mode is remembered, so
that asking for this mode again changes nothing. -/
theorem second_video_stays_2D : ∃ s, Reaches (step parsed)
    ⟨.create true true true true true true, 0⟩
    [.connected, .reply players, .reply splitVertical, .reply players] s ∧
    s.checker.videoModes = [.video2D, .video3DSBS, .video2D] ∧
    (s.checker.setVideoMode .video3DSBS).videoModes = s.checker.videoModes ∧
    s.checker.grabbers = .video2D ∧ ¬ s.Agrees := by
  have checked : evaluates (step parsed)
      (.ok ⟨.create true true true true true true, 0⟩)
      [.connected, .reply players, .reply splitVertical, .reply players]
      (fun s => decide (s.checker.videoModes = [.video2D, .video3DSBS, .video2D] ∧
        s.checker.previousVideoMode = .video3DSBS)) = true := by
    decide +kernel
  obtain ⟨_, s, started, run, found⟩ := exists_of_evaluates checked
  obtain rfl := Except.ok.inj started
  obtain ⟨modes, previous⟩ := of_decide_eq_true found
  have unchanged := (KODIVideoChecker.suppressed_iff (c := s.checker) .video3DSBS).mpr previous.symm
  have flat : s.checker.grabbers = .video2D := by rw [KODIVideoChecker.grabbers, modes]; rfl
  refine ⟨s, run, modes, unchanged, flat, fun agrees => ?_⟩
  exact absurd (flat.symm.trans (agrees.suppressed _ unchanged)) (by decide)

end KodiSession

end HyperionNg
