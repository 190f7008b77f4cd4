import HyperionNg.ProtoClientConnection
import HyperionNg.ProtoConnection

/-! The replies of the proto server: each message is answered once by its
handler, also one that did not parse and has been answered already; and what
the client makes of each reply. -/

namespace HyperionNg

open Library Library.Execution Proto

namespace ProtoSession

variable {s t : ProtoSession} {clock : Nat → Int}

def Answered (s t : ProtoSession) : Prop := ∃ reply, t.replies = s.replies ++ [reply]

private theorem answered_success (same : t.replies = s.replies) : s.Answered t.sendSuccessReply :=
  ⟨successReply, by rw [← same]; rfl⟩

private theorem answered_error (same : t.replies = s.replies) (error : String) :
    s.Answered (t.sendErrorReply error) :=
  ⟨errorReply error, by rw [← same]; rfl⟩

private theorem answered_of_error {error : String} (refused : s.sendErrorReply error = t) :
    s.Answered t :=
  refused ▸ answered_error rfl error

private theorem call_replies {result : Except (Thrown Fault Hyperion) Hyperion}
    (ok : s.call result = .ok t) : t.replies = s.replies := by
  cases result with
  | ok hyperion => rw [← Except.ok.inj ok]
  | error thrown => exact absurd ok nofun

private theorem perform_replies {request : HyperionRequest} (ok : s.perform clock request = .ok t) :
    t.replies = s.replies := by
  cases request with
  | setColors priority ledColors duration => exact call_replies ok
  | setImage priority image duration => rw [Except.ok.inj ok]

theorem thenSuccess_answers {result : Except (Thrown Fault Hyperion) Hyperion}
    {finish : ProtoSession → ProtoSession}
    (ok : (s.call result).bind (fun u => .ok (finish u).sendSuccessReply) = .ok t)
    (keeps : ∀ u, (finish u).replies = u.replies) : s.Answered t := by
  obtain ⟨u, called, done⟩ := bind_eq_ok.mp ok
  rw [← Except.ok.inj done]
  exact answered_success ((keeps u).trans (call_replies called))

private theorem handleColorCommand_answers {message : ColorRequest}
    (ok : s.handleColorCommand clock message = .ok t) : s.Answered t := by
  have answered : Answered { s with priority := message.priority } t :=
    thenSuccess_answers ok fun _ => rfl
  exact answered

theorem handleImageCommand_answers {build : Build} {message : ImageMessage}
    (ok : s.handleImageCommand build clock message = .ok t) : s.Answered t := by
  obtain ⟨⟨reply, imageProcessor, requests⟩, _, ok⟩ := bind_eq_ok.mp ok
  obtain ⟨u, performed, done⟩ := bind_eq_ok.mp ok
  have same : u.replies = s.replies := by
    have run : Reaches (perform clock) { s with priority := message.priority, imageProcessor }
      requests u := performed
    refine run.invariant (I := fun v => v.replies = s.replies) (fun v a w before step => ?_) rfl
    exact (perform_replies step).trans before
  cases reply with
  | success =>
    rw [← Except.ok.inj done]
    exact answered_success same
  | error error =>
    rw [← Except.ok.inj done]
    exact answered_error same error

private theorem handleClearCommand_answers {message : ClearRequest}
    (ok : s.handleClearCommand clock message = .ok t) : s.Answered t := by
  have answered : Answered { s with priority := message.priority } t :=
    thenSuccess_answers ok fun _ => rfl
  exact answered

private theorem handleClearallCommand_answers (ok : s.handleClearallCommand clock = .ok t) :
    s.Answered t :=
  thenSuccess_answers ok fun _ => rfl

theorem elim_answers {α : Type} {part : Option α} {error : String}
    {handle : α → Except ProtoFault ProtoSession}
    (answers : ∀ message, handle message = .ok t → s.Answered t)
    (ok : part.elim (.ok (s.sendErrorReply error)) handle = .ok t) : s.Answered t := by
  cases part with
  | none => exact answered_of_error (Except.ok.inj ok)
  | some message => exact answers message ok

theorem dispatch_answers {build : Build} {message : Proto.HyperionRequest}
    (ok : s.dispatch build clock message = .ok t) : s.Answered t := by
  unfold dispatch at ok
  cases command : message.getCommand with
  | color =>
    rw [command] at ok
    exact elim_answers (fun _ => handleColorCommand_answers) ok
  | image =>
    rw [command] at ok
    exact elim_answers (fun _ => handleImageCommand_answers) ok
  | clear =>
    rw [command] at ok
    exact elim_answers (fun _ => handleClearCommand_answers) ok
  | clearall =>
    rw [command] at ok
    exact handleClearallCommand_answers ok

theorem handleMessage_answers {build : Build} {message : Proto.HyperionRequest}
    (ok : s.handleMessage build clock message = .ok t) : s.Answered t := by
  obtain ⟨u, dispatched, done⟩ := bind_eq_ok.mp ok
  obtain ⟨reply, replies⟩ := dispatch_answers dispatched
  refine ⟨reply, ?_⟩
  rw [← Except.ok.inj done]
  split_ifs
  · exact replies
  · exact replies

theorem serve_answers {parser : Parser} {build : Build} {body : List UInt8}
    (unparsable : (parser.parseRequest body).1 = false)
    (ok : s.serve parser build clock body = .ok t) :
    ∃ reply, t.replies = s.replies ++ [errorReply "Unable to parse message"] ++ [reply] := by
  have handled : (s.sendErrorReply "Unable to parse message").handleMessage build clock
      (parser.parseRequest body).2 = .ok t := by
    rw [← ok]
    simp only [serve, unparsable, Bool.false_eq_true, if_false]
  exact handleMessage_answers handled

end ProtoSession

/-- What a read should do with a frame that is not a message: an error reply,
the same state of the core, and the bytes behind the frame. -/
def RejectsFrame (parser : Parser) (build : Build) (clock : Nat → Int)
    (c : ProtoClientConnection ProtoSession) (bytes rest : List UInt8) : Prop :=
  ∃ d, c.readData (ProtoSession.serve parser build clock) bytes = .ok d ∧
    d.session.hyperion = c.session.hyperion ∧
    (∃ error, d.session.replies = c.session.replies ++ [ProtoSession.errorReply error]) ∧
    d.receiveBuffer = rest

/-- A frame that does not parse is never rejected: what has been read of the
message is handled behind the error reply, and answered again. -/
theorem not_rejectsFrame (parser : Parser) (build : Build) (clock : Nat → Int)
    (c : ProtoClientConnection ProtoSession) (bytes body rest : List UInt8)
    (whole : nextMessage (c.receiveBuffer ++ bytes) = some (body, rest))
    (unparsable : (parser.parseRequest body).1 = false) :
    ¬ RejectsFrame parser build clock c bytes rest := by
  rintro ⟨d, read, _, ⟨error, replies⟩, _⟩
  simp only [ProtoClientConnection.readData, whole] at read
  obtain ⟨session, served, rfl⟩ := map_eq_ok.mp read
  obtain ⟨reply, both⟩ := ProtoSession.serve_answers unparsable served
  have length := congrArg List.length (both.symm.trans replies)
  simp at length

def emptyParser : Parser where
  parseRequest _ := (false, {})
  parseReply _ := (false, {})

def clearallParser : Parser where
  parseRequest _ := (false, { command := some .clearall })
  parseReply _ := (false, {})

def freshConnection : ProtoClientConnection ProtoSession where
  session := {
    hyperion := Hyperion.initial .stable (.ofLeds []) (.uniform 0) 255
    imageProcessor := .create [] {}
    priorityChannelName := "proto@127.0.0.1" }

theorem not_rejectsFrame_clearall :
    ¬ RejectsFrame clearallParser ⟨true, 32, by decide⟩ (fun _ => 0) freshConnection
      [0, 0, 0, 3, 8, 4, 7] [] :=
  not_rejectsFrame clearallParser ⟨true, 32, by decide⟩ (fun _ => 0) freshConnection
    [0, 0, 0, 3, 8, 4, 7] [8, 4, 7] [] (by decide) rfl

/-- Bytes that are no message are answered twice, the second time as a colour
command. -/
theorem answered_twice :
    (freshConnection.readData (ProtoSession.serve emptyParser ⟨true, 32, by decide⟩ fun _ => 0)
        [0, 0, 0, 1, 7]).map (fun d => d.session.replies) =
      .ok [ProtoSession.errorReply "Unable to parse message",
        ProtoSession.errorReply "Received COLOR command without ColorRequest"] ∧
    ¬ RejectsFrame emptyParser ⟨true, 32, by decide⟩ (fun _ => 0) freshConnection
      [0, 0, 0, 1, 7] [] := by
  have both : (freshConnection.readData
      (ProtoSession.serve emptyParser ⟨true, 32, by decide⟩ fun _ => 0) [0, 0, 0, 1, 7]).map
        (fun d => d.session.replies) =
      .ok [ProtoSession.errorReply "Unable to parse message",
        ProtoSession.errorReply "Received COLOR command without ColorRequest"] := rfl
  refine ⟨both, ?_⟩
  rintro ⟨d, read, _, ⟨error, replies⟩, _⟩
  rw [read] at both
  have length := congrArg List.length ((Except.ok.inj both).symm.trans replies)
  simp [freshConnection] at length

inductive ServerReply
  | success
  | failure (error : String)
  | grabbing (mode : GrabbingMode)
  | video (mode : VideoMode)

namespace ServerReply

def send (s : ProtoSession) : ServerReply → ProtoSession
  | success => s.sendSuccessReply
  | failure error => s.sendErrorReply error
  | grabbing mode => s.setGrabbingMode mode
  | video mode => s.setVideoMode mode

/-- A notification, which is no answer to a request. -/
def Notifies : ServerReply → Prop
  | success => False
  | failure _ => False
  | grabbing _ => True
  | video _ => True

/-- What `parseReply` should make of a reply: its result, the text it throws,
the signals it emits. -/
def Reproduced : ServerReply → Except String (Bool × List ProtoSignal) → Prop
  | success, result => result = .ok (true, [])
  | failure error, result => result = .error ("PROTOCONNECTION ERROR: " ++ error)
  | grabbing mode, result => ∃ success, result = .ok (success, [.setGrabbingMode mode.toInt])
  | video mode, result => ∃ success, result = .ok (success, [.setVideoMode mode.toInt])

def message : ServerReply → HyperionReply
  | success => ProtoSession.successReply
  | failure error => ProtoSession.errorReply error
  | grabbing mode => ProtoSession.grabbingReply mode
  | video mode => ProtoSession.videoReply mode

theorem send_replies (s : ProtoSession) (reply : ServerReply) :
    (reply.send s).replies = s.replies ++ [reply.message] := by
  cases reply with
  | success => rfl
  | failure error => rfl
  | grabbing mode => rfl
  | video mode => rfl

/-- The message the server sends is understood by the client. -/
def Agrees (skipReply : Bool) (s : ProtoSession) (reply : ServerReply) : Prop :=
  ∃ message, (reply.send s).replies = s.replies ++ [message] ∧
    reply.Reproduced (ProtoConnection.parseReply skipReply message)

theorem agrees_iff_message (skipReply : Bool) (s : ProtoSession) (reply : ServerReply) :
    reply.Agrees skipReply s ↔
      reply.Reproduced (ProtoConnection.parseReply skipReply reply.message) := by
  constructor
  · rintro ⟨message, sent, reproduced⟩
    rw [send_replies] at sent
    have same : reply.message = message := by simpa using sent
    exact same ▸ reproduced
  · intro reproduced
    exact ⟨reply.message, send_replies s reply, reproduced⟩

private theorem parseReply_success (skipReply : Bool) :
    ProtoConnection.parseReply skipReply success.message = .ok (!skipReply, []) := by
  cases skipReply <;> rfl

private theorem parseReply_failure (skipReply : Bool) (error : String) :
    ProtoConnection.parseReply skipReply (failure error).message =
      if skipReply then .ok (false, []) else .error ("PROTOCONNECTION ERROR: " ++ error) := by
  cases skipReply <;> rfl

private theorem parseReply_grabbing (skipReply : Bool) (mode : GrabbingMode) :
    ProtoConnection.parseReply skipReply (grabbing mode).message =
      .ok (false, [.setGrabbingMode mode.toInt]) := rfl

private theorem parseReply_video (skipReply : Bool) (mode : VideoMode) :
    ProtoConnection.parseReply skipReply (video mode).message =
      .ok (false, [.setVideoMode VideoMode.video2D.toInt]) := rfl

/-- Server and client agree on every reply the client does not skip but the
video modes other than 2D. -/
theorem agrees_iff (skipReply : Bool) (s : ProtoSession) (reply : ServerReply) :
    reply.Agrees skipReply s ↔
      (skipReply = false ∨ reply.Notifies) ∧ ∀ mode, reply = video mode → mode = .video2D := by
  rw [agrees_iff_message]
  cases reply with
  | success => simp [parseReply_success, Reproduced, Notifies]
  | failure error =>
    rw [parseReply_failure]
    cases skipReply with
    | false => simp [Reproduced]
    | true => simp [Reproduced, Notifies]
  | grabbing mode => simp [parseReply_grabbing, Reproduced, Notifies]
  | video mode =>
    rw [parseReply_video]
    constructor
    · rintro ⟨success, same⟩
      refine ⟨Or.inr trivial, fun mode' reply => ?_⟩
      have both : success = false ∧ VideoMode.video2D.toInt = mode.toInt := by simpa using same
      rw [← ServerReply.video.inj reply]
      exact (VideoMode.toInt_inj both.2).symm
    · rintro ⟨_, only⟩
      exact ⟨false, by rw [only mode rfl]⟩

/-- A 3D mode arrives as 2D. -/
theorem sbs_arrives_as_2D :
    ProtoConnection.parseReply false (video .video3DSBS).message =
      .ok (false, [.setVideoMode VideoMode.video2D.toInt]) ∧
    ¬ (video .video3DSBS).Agrees false freshConnection.session := by
  refine ⟨rfl, fun agrees => ?_⟩
  obtain ⟨success, same⟩ := (agrees_iff_message _ _ _).mp agrees
  rw [parseReply_video] at same
  simp [VideoMode.toInt] at same

end ServerReply

end HyperionNg
