import HyperionNg.AdalightFrames
import HyperionNg.Library.Execution

/-! The driver and the sketch on one serial line that loses no byte. Once a timeout has
switched the LEDs off, the sketch shows what a display would that is given the frames
themselves and goes dark with the same timeouts. Without a timeout it finds the next
frame by itself, if no colours look like a start of one. -/

namespace HyperionNg.Adalight

open Library Execution FrameSync LedDeviceAdalight

structure Line where
  device : LedDeviceAdalight
  sketch : Adalight := {}
  shown : List (List ColorRgb) := []

/-- What the line brings: a frame of the driver, a turn of the sketch's wait, or bytes
that are no frame of it, as what is left of one that was cut short. -/
inductive Signal
  | write (ledValues : List ColorRgb) (arrival : Nat → Arrival)
  | poll (now later : UInt32)
  | noise (bytes : List UInt8) (arrival : Nat → Arrival)

namespace Line

variable (intBits : Nat)

def receive (line : Line) (events : List Event) : Line :=
  let (sketch, pictures) := run (Adalight.step intBits) line.sketch events
  { line with sketch, shown := line.shown ++ pictures }

def step (line : Line) : Signal → Except Fault Line
  | .write ledValues arrival => do
    let device ← line.device.write ledValues
    .ok ({ line with device }.receive intBits (arrive device.ledBuffer arrival))
  | .poll now later => .ok (line.receive intBits [.poll now later])
  | .noise bytes arrival => .ok (line.receive intBits (arrive bytes arrival))

def start (ledCount : Nat) (deviceConfig : QJsonObject) : Line where
  device := init ledCount deviceConfig

end Line

namespace Signal

def events : Signal → List Event
  | .write ledValues arrival => arrive (message ledValues) arrival
  | .poll now later => [.poll now later]
  | .noise bytes arrival => arrive bytes arrival

/-- A display that is given the frames themselves: its state is when it goes dark. -/
def display (endTime : UInt32) : Signal → UInt32 × List (List ColorRgb)
  | .write ledValues arrival =>
    ((arrival ((message ledValues).length - 1)).now + offTimeout, [visible ledValues])
  | .poll now later =>
    if endTime < now then (later + offTimeout, [Adalight.shown dark]) else (endTime, [])
  | .noise _ _ => (endTime, [])

/-- A turn of the wait, or a frame of all LEDs within which no wait times out. -/
def Whole (ledCount : Nat) (endTime : UInt32) : Signal → Prop
  | .write ledValues arrival => ledValues.length = ledCount ∧
    ∀ k < (message ledValues).length, ∀ clock ∈ (arrival k).polls, ¬ endTime < clock.1
  | .poll _ _ => True
  | .noise _ _ => False

end Signal

section Runs

variable {intBits ledCount : Nat}

structure Inv (ledCount : Nat) (line : Line) : Prop where
  made : Made ledCount line.device
  valid : Valid line.sketch.toReceiver

theorem Inv.receive {line : Line} (inv : Inv ledCount line) (events : List Event) :
    Inv ledCount (line.receive intBits events) := by
  have keeps : ∀ (s : Adalight) (e : Event), Valid s.toReceiver →
      Valid (step intBits s e).1.toReceiver := fun _ e valid => valid.step e
  exact ⟨inv.made, run_invariant keeps inv.valid events⟩

theorem Inv.step {line next : Line} {signal : Signal} (inv : Inv ledCount line)
    (taken : line.step intBits signal = .ok next) : Inv ledCount next := by
  cases signal with
  | write ledValues arrival =>
    obtain ⟨device, written, taken⟩ := bind_eq_ok.mp taken
    obtain rfl := Except.ok.inj taken
    have kept : Inv ledCount { line with device } := ⟨inv.made.kept written, inv.valid⟩
    exact kept.receive _
  | poll now later =>
    obtain rfl := Except.ok.inj taken
    exact inv.receive _
  | noise bytes arrival =>
    obtain rfl := Except.ok.inj taken
    exact inv.receive _

theorem Inv.reaches {line next : Line} {signals : List Signal} (inv : Inv ledCount line)
    (run : Reaches (Line.step intBits) line signals next) : Inv ledCount next :=
  run.invariant (fun _ _ _ kept taken => Inv.step kept taken) inv

theorem inv_start (some : 1 ≤ ledCount) (few : ledCount ≤ maxLeds) {deviceConfig : QJsonObject}
    (plain : ((deviceConfig.value "lightberry_apa102_mode").getD .null).toBool false = false) :
    Inv ledCount (Line.start ledCount deviceConfig) := by
  have most : ledCount ≤ 500 := few
  exact ⟨made_init some (by omega) plain, valid_start⟩

theorem exists_run {line : Line} (made : Made ledCount line.device) {signals : List Signal}
    (sized : ∀ ledValues arrival, .write ledValues arrival ∈ signals →
      ledValues.length = ledCount) :
    ∃ next, Reaches (Line.step intBits) line signals next ∧
      next.sketch = (run (step intBits) line.sketch (signals.flatMap Signal.events)).1 ∧
      next.shown =
        line.shown ++ (run (step intBits) line.sketch (signals.flatMap Signal.events)).2 := by
  induction signals generalizing line with
  | nil => exact ⟨line, rfl, rfl, (List.append_nil _).symm⟩
  | cons signal rest ih =>
    obtain ⟨device, keeps, taken⟩ : ∃ device, Made ledCount device ∧
        line.step intBits signal = .ok ({ line with device }.receive intBits signal.events) := by
      cases signal with
      | write ledValues arrival =>
        have written := made.write (sized ledValues arrival List.mem_cons_self)
        refine ⟨_, made.kept written, ?_⟩
        rw [Line.step, written]
        rfl
      | poll | noise => exact ⟨line.device, made, rfl⟩
    obtain ⟨next, run, sketch, shown⟩ := @ih ({ line with device }.receive intBits signal.events)
      keeps fun ledValues arrival mem => sized ledValues arrival (List.mem_cons_of_mem signal mem)
    refine ⟨next, reaches_cons.mpr ⟨_, taken, run⟩, ?_, ?_⟩
    · rw [sketch, List.flatMap_cons, run_append]
      rfl
    · rw [shown, List.flatMap_cons, run_append, ← List.append_assoc]
      rfl

def InStep (s : Adalight) (endTime : UInt32) : Prop := Ready s.awake ∧ s.endTime = endTime

private theorem inStep_timeout {s : Adalight} {now later : UInt32} (late : s.endTime < now) :
    InStep (s.poll now later).1 (later + offTimeout) ∧ (s.poll now later).2 = [shown dark] := by
  rw [poll, if_pos late]
  exact ⟨⟨ready_giveUp _ _, rfl⟩, rfl⟩

theorem displays (wide : 16 ≤ intBits) (some : 1 ≤ ledCount) (few : ledCount ≤ maxLeds) :
    Displays (step intBits) Signal.display Signal.events InStep (Signal.Whole ledCount) := by
  have both : ∀ {s : Adalight} {endTime : UInt32} {signal : Signal}, InStep s endTime →
      signal.Whole ledCount endTime →
      InStep (run (step intBits) s signal.events).1 (signal.display endTime).1 ∧
        (run (step intBits) s signal.events).2 = (signal.display endTime).2 := by
    rintro s _ signal ⟨ready, rfl⟩ whole
    cases signal with
    | write ledValues arrival =>
      obtain ⟨rfl, inTime⟩ := whole
      obtain ⟨again, shows, moved⟩ := run_write ready some few wide inTime
      exact ⟨⟨again, moved⟩, shows⟩
    | poll now later =>
      rw [Signal.events, run_cons, run_nil, List.append_nil]
      by_cases late : s.endTime < now
      · rw [Signal.display, if_pos late]
        exact inStep_timeout late
      · have still : step intBits s (.poll now later) = (s, []) := if_neg late
        rw [Signal.display, if_neg late, still]
        exact ⟨⟨ready, rfl⟩, rfl⟩
    | noise => exact whole.elim
  exact ⟨fun inStep whole => (both inStep whole).1, fun inStep whole => (both inStep whole).2⟩

/-- Whatever has been on the line, once a timeout has switched the LEDs off the line
shows what the display does: every frame as it was sent, the dark at every later
timeout, and nothing else. -/
theorem shown_after_timeout (wide : 16 ≤ intBits) (some : 1 ≤ ledCount)
    (few : ledCount ≤ maxLeds) {deviceConfig : QJsonObject}
    (plain : ((deviceConfig.value "lightberry_apa102_mode").getD .null).toBool false = false)
    {history : List Signal} {line : Line}
    (past : Reaches (Line.step intBits) (Line.start ledCount deviceConfig) history line)
    {now later : UInt32} (late : line.sketch.endTime < now) {signals : List Signal}
    (whole : Meets Signal.display (Signal.Whole ledCount) (later + offTimeout) signals) :
    ∃ next, Reaches (Line.step intBits) line (.poll now later :: signals) next ∧
      next.shown = line.shown ++
        shown dark :: (run Signal.display (later + offTimeout) signals).2 := by
  have inv := (inv_start some few plain).reaches past
  have sized : ∀ ledValues arrival, .write ledValues arrival ∈ Signal.poll now later :: signals →
      ledValues.length = ledCount := by
    intro ledValues arrival mem
    rcases List.mem_cons.mp mem with other | mem
    · exact absurd other nofun
    · obtain ⟨_, good⟩ := exists_of_meets whole mem
      exact good.1
  obtain ⟨next, reached, -, pictures⟩ := exists_run inv.made sized
  obtain ⟨inStep, off⟩ := inStep_timeout late
  obtain ⟨-, outputs⟩ := (displays wide some few).run inStep whole
  refine ⟨next, reached, ?_⟩
  have first : run (step intBits) line.sketch (Signal.events (.poll now later)) =
      line.sketch.poll now later := by
    rw [Signal.events, run_cons, run_nil, List.append_nil]
    rfl
  rw [pictures, List.flatMap_cons, run_append, first, off, outputs]
  rfl

def atOnce (now : UInt32) (_ : Nat) : Arrival := ⟨[], now⟩

theorem not_timesOut_atOnce {bytes : List UInt8} {now : UInt32} {e : Event}
    (arrives : e ∈ arrive bytes (atOnce now)) (s : Adalight) : ¬ s.TimesOut e := by
  induction bytes with
  | nil => exact absurd arrives List.not_mem_nil
  | cons b rest ih =>
    rcases List.mem_cons.mp arrives with rfl | later
    · exact fun late => late
    · exact ih later

/-- The header is cut short and the wait times out twice, then a frame whose bytes are
waited for, and the next timeout. -/
theorem shown_after_cut_header :
    let line := (Line.start 2 []).receive 16 (arrive [65, 100] (atOnce 0))
    let slow : Nat → Arrival := fun k => ⟨[(50000 + .ofNat k, 50000 + .ofNat k)], 50000 + .ofNat k⟩
    ∃ next, Reaches (Line.step 16) line [.poll 20000 20000, .poll 40000 40000,
        .write [⟨1, 2, 3⟩, ⟨4, 5, 6⟩] slow, .poll 60000 60000, .poll 70000 70000] next ∧
      next.shown = line.shown ++
        [shown dark, shown dark, visible [⟨1, 2, 3⟩, ⟨4, 5, 6⟩], shown dark] := by
  have past : Reaches (Line.step 16) (Line.start 2 []) [.noise [65, 100] (atOnce 0)]
    ((Line.start 2 []).receive 16 (arrive [65, 100] (atOnce 0))) := rfl
  have soon : ∀ k < 12, ¬ (55000 : UInt32) < 50000 + .ofNat k := by decide
  refine shown_after_timeout le_rfl (by decide) (by decide) rfl past (by decide) ?_
  refine ⟨trivial, ⟨rfl, fun k small clock mem => ?_⟩, trivial, trivial, trivial⟩
  rw [List.mem_singleton.mp mem]
  exact soon k small

theorem displays_quiet (wide : 16 ≤ intBits) (some : 1 ≤ ledCount) (few : ledCount ≤ maxLeds) :
    Displays (read intBits) (plain fun ledValues => [visible ledValues]) message
      (fun s _ => Ready s) fun _ ledValues => ledValues.length = ledCount ∧ Quiet ledValues where
  again {s d ledValues} ready good := by
    obtain ⟨rfl, _⟩ := good
    exact ⟨0, Nat.zero_le 2, (run_message ready some few wide).1⟩
  output {s d ledValues} ready good := by
    obtain ⟨rfl, _⟩ := good
    exact (run_message ready some few wide).2

/-- Frames whose colours hold nothing like a start of a frame, and no timeout: whatever
has been on the line, at most one picture is wrong, and from the first frame behind what
the sketch still waited for every one is shown as it was sent. -/
theorem shown_without_timeout (wide : 16 ≤ intBits) (some : 1 ≤ ledCount)
    (few : ledCount ≤ maxLeds) {deviceConfig : QJsonObject}
    (plain : ((deviceConfig.value "lightberry_apa102_mode").getD .null).toBool false = false)
    {history : List Signal} {line : Line}
    (past : Reaches (Line.step intBits) (Line.start ledCount deviceConfig) history line)
    {frames : List (List ColorRgb × (Nat → Arrival))}
    (sized : ∀ frame ∈ frames, frame.1.length = ledCount) (quiet : ∀ frame ∈ frames, Quiet frame.1)
    (inTime : Meets (step intBits) (fun s e => ¬ s.TimesOut e) line.sketch
      (frames.flatMap fun frame => arrive (message frame.1) frame.2)) :
    need line.sketch.awake ≤ 3 * maxLeds + 3 ∧ ∃ next wrong skipped,
      Reaches (Line.step intBits) line (frames.map fun frame => .write frame.1 frame.2) next ∧
      wrong.length ≤ 1 ∧
      (∀ n, skipped = n + 1 → n * (headerSize + 3 * ledCount) < need line.sketch.awake) ∧
      next.shown =
        line.shown ++ (wrong ++ (frames.drop skipped).map fun frame => visible frame.1) := by
  have inv := (inv_start some few plain).reaches past
  have written : ∀ ledValues arrival,
      .write ledValues arrival ∈ frames.map (fun frame => Signal.write frame.1 frame.2) →
      ledValues.length = ledCount := by
    intro ledValues arrival mem
    obtain ⟨frame, here, same⟩ := List.mem_map.mp mem
    rw [← (Signal.write.inj same).1]
    exact sized frame here
  obtain ⟨next, reached, -, pictures⟩ := @exists_run intBits _ _ inv.made _ written
  obtain ⟨-, taken⟩ := run_inTime inTime
  have bytes : (frames.flatMap fun frame => arrive (message frame.1) frame.2).filterMap
      Event.byte? = (frames.map Prod.fst).flatMap message := by
    rw [List.filterMap_flatMap, List.flatMap_map]
    simp only [byte?_arrive]
  have lengths : ∀ ledValues ∈ frames.map Prod.fst,
      (message ledValues).length = headerSize + 3 * ledCount := by
    intro ledValues mem
    obtain ⟨frame, here, rfl⟩ := List.mem_map.mp mem
    rw [length_message, sized frame here]
  have good : ∀ ledValues ∈ frames.map Prod.fst,
      ledValues.length = ledCount ∧ Quiet ledValues := by
    intro ledValues mem
    obtain ⟨frame, here, rfl⟩ := List.mem_map.mp mem
    exact ⟨sized frame here, quiet frame here⟩
  obtain ⟨wrong, skipped, short, bound, outputs, -⟩ := (resyncs ledCount).frames
    (displays_quiet wide some few) inv.valid.awake good lengths
  refine ⟨need_le inv.valid.awake, next, wrong, skipped, reached, short, bound, ?_⟩
  rw [pictures, List.flatMap_map]
  refine congrArg (line.shown ++ ·) (taken.trans ?_)
  rw [bytes, outputs, ← List.map_eq_flatMap, ← List.map_drop, List.map_map]
  rfl

/-- A header is cut short; of the frames behind it some are lost, and no more than the
sketch can wait for. -/
theorem shown_after_cut_header_only :
    let line := (Line.start 2 []).receive 16 (arrive [65, 100, 97] (atOnce 0))
    let frames := List.replicate 200 ([⟨1, 2, 3⟩, ⟨4, 5, 6⟩], atOnce 0)
    need line.sketch.awake ≤ 1503 ∧ ∃ next wrong skipped,
      Reaches (Line.step 16) line (frames.map fun frame => .write frame.1 frame.2) next ∧
      wrong.length ≤ 1 ∧ (∀ n, skipped = n + 1 → n * 12 < 1503) ∧
      next.shown =
        line.shown ++ (wrong ++ (frames.drop skipped).map fun frame => visible frame.1) := by
  have past : Reaches (Line.step 16) (Line.start 2 []) [.noise [65, 100, 97] (atOnce 0)]
    ((Line.start 2 []).receive 16 (arrive [65, 100, 97] (atOnce 0))) := rfl
  refine shown_without_timeout le_rfl (by decide) (by decide) rfl past ?_ ?_ ?_
  · intro frame mem
    rw [List.eq_of_mem_replicate mem]
    rfl
  · intro frame mem
    rw [List.eq_of_mem_replicate mem]
    decide
  · refine meets_of_forall fun e mem s => ?_
    obtain ⟨frame, here, arrives⟩ := List.mem_flatMap.mp mem
    rw [List.eq_of_mem_replicate here] at arrives
    exact not_timesOut_atOnce arrives s

end Runs

end HyperionNg.Adalight
