import HyperionNg.SmoothingTarget

/-! The output line of the smoothing on its own: whatever switches the writing
on and off between the ticks, the frames offered while it is on reach the
device once each, in order, and with a delay that is exact while it stays on. -/

namespace HyperionNg

open Library Library.Execution

namespace LinearColorSmoothing

/-- A run of the smoothing with its ticks so far: for each whether writing was
enabled when the frame was queued, and the frame. -/
structure Traced where
  smoothing : LinearColorSmoothing
  ticks : List (Bool × List ColorRgb) := []
deriving DecidableEq

/-- What happens between a start and a stop of the smoothing. -/
inductive Event
  | writeToLedsEnable (enable : Bool)
  | write (ledValues : List ColorRgb) (now later : Int)
  | queueColors (ledColors : List ColorRgb)
  | updateLeds (now : Int)

/-- The flag with which `updateLeds` calls `queueColors`. -/
def enabledAt (s : LinearColorSmoothing) (now : Int) : Bool :=
  if s.deltaTime now < 0 then s.writeToLedsEnable else true

def Traced.step (r : Rounding) (run : Traced) : Event → Except Fault Traced
  | .writeToLedsEnable enable =>
    .ok { run with smoothing := { run.smoothing with writeToLedsEnable := enable } }
  | .write ledValues now later => do
    let smoothing ← run.smoothing.write ledValues now later
    pure { run with smoothing }
  | .queueColors ledColors => .ok {
      smoothing := run.smoothing.queueColors ledColors
      ticks := run.ticks ++ [(run.smoothing.writeToLedsEnable, ledColors)] }
  | .updateLeds now => do
    let smoothing ← run.smoothing.updateLeds r now
    pure {
      smoothing
      ticks := run.ticks ++ [(run.smoothing.enabledAt now, smoothing.previousValues)] }

theorem queueColors_line {s : LinearColorSmoothing} (colors : List ColorRgb)
    (bounded : s.outputQueue.length ≤ s.outputDelay) :
    (s.queueColors colors).line = s.line.shift s.outputDelay s.writeToLedsEnable colors ∧
      (s.queueColors colors).outputDelay = s.outputDelay ∧
      (s.queueColors colors).previousValues = s.previousValues := by
  rw [queueColors_eq s colors bounded]
  exact ⟨rfl, rfl, rfl⟩

theorem write_line {s t : LinearColorSmoothing} {values : List ColorRgb} {now later : Int}
    (ok : s.write values now later = .ok t) :
    t.line = s.line ∧ t.outputDelay = s.outputDelay := by
  unfold LinearColorSmoothing.write at ok
  split_ifs at ok
  · cases ok
    exact ⟨rfl, rfl⟩
  · obtain ⟨_, _, rest⟩ := bind_eq_ok.mp ok
    cases rest
    exact ⟨rfl, rfl⟩

theorem updateLeds_line {r : Rounding} {s t : LinearColorSmoothing} {now : Int}
    (ok : s.updateLeds r now = .ok t) (bounded : s.outputQueue.length ≤ s.outputDelay) :
    t.line = s.line.shift s.outputDelay (s.enabledAt now) t.previousValues ∧
      t.outputDelay = s.outputDelay := by
  unfold updateLeds at ok
  unfold enabledAt
  split_ifs at ok ⊢
  · obtain ⟨values, _, rest⟩ := bind_eq_ok.mp ok
    cases rest
    obtain ⟨line, delay, shown⟩ := queueColors_line (s := { s with
      previousValues := values, previousTime := now }) values bounded
    exact ⟨line.trans (congrArg
      (DelayLine.shift s.outputDelay s.writeToLedsEnable · s.line) shown.symm), delay⟩
  · obtain ⟨values, _, rest⟩ := bind_eq_ok.mp ok
    cases rest
    obtain ⟨line, delay, shown⟩ := queueColors_line (s := { s with
      writeToLedsEnable := true, previousValues := values, previousTime := now }) values bounded
    exact ⟨line.trans (congrArg (DelayLine.shift s.outputDelay true · s.line) shown.symm), delay⟩

structure Traced.Follows (delay : Nat) (run : Traced) : Prop where
  delayed : run.smoothing.outputDelay = delay
  line : run.smoothing.line = DelayLine.run delay ⟨[], []⟩ run.ticks

theorem Traced.Follows.bounded {delay : Nat} {run : Traced} (follows : run.Follows delay) :
    run.smoothing.outputQueue.length ≤ delay := by
  have length : (DelayLine.run delay ⟨[], []⟩ run.ticks).queue.length ≤ delay :=
    DelayLine.run_length_le (Nat.zero_le delay) run.ticks
  rwa [← follows.line] at length

theorem Traced.Follows.step {delay : Nat} {r : Rounding} {run next : Traced} {event : Event}
    (follows : run.Follows delay) (ok : run.step r event = .ok next) : next.Follows delay := by
  have bounded : run.smoothing.outputQueue.length ≤ run.smoothing.outputDelay :=
    follows.bounded.trans_eq follows.delayed.symm
  cases event with
  | writeToLedsEnable enable =>
    cases ok
    exact ⟨follows.delayed, follows.line⟩
  | write values now later =>
    obtain ⟨smoothing, written, rest⟩ := bind_eq_ok.mp ok
    cases rest
    obtain ⟨line, delayed⟩ := write_line written
    exact ⟨delayed.trans follows.delayed, line.trans follows.line⟩
  | queueColors colors =>
    cases ok
    obtain ⟨line, delayed, -⟩ := queueColors_line colors bounded
    refine ⟨delayed.trans follows.delayed, line.trans ?_⟩
    rw [DelayLine.run_append, ← follows.line, follows.delayed]
    rfl
  | updateLeds now =>
    obtain ⟨smoothing, ticked, rest⟩ := bind_eq_ok.mp ok
    cases rest
    obtain ⟨line, delayed⟩ := updateLeds_line ticked bounded
    refine ⟨delayed.trans follows.delayed, line.trans ?_⟩
    rw [DelayLine.run_append, ← follows.line, follows.delayed]
    rfl

theorem Traced.Follows.reaches {delay : Nat} {r : Rounding} {start run : Traced}
    {events : List Event} (follows : start.Follows delay)
    (reached : Reaches (Traced.step r) start events run) : run.Follows delay :=
  reached.invariant (fun _ _ _ follows ok => Traced.Follows.step follows ok) follows

def Traced.start (s : LinearColorSmoothing) : Traced := { smoothing := s }

theorem Traced.start_follows (frequency : ℚ) (settling : Int) (delay : Nat) (continuous : Bool) :
    (Traced.start (new frequency settling delay continuous)).Follows delay := ⟨rfl, rfl⟩

theorem Traced.step_ticks {r : Rounding} {run next : Traced} {event : Event}
    (ok : run.step r event = .ok next) :
    next.ticks = run.ticks ∨ ∃ tick, next.ticks = run.ticks ++ [tick] := by
  cases event with
  | writeToLedsEnable enable =>
    cases ok
    exact Or.inl rfl
  | write values now later =>
    obtain ⟨_, _, rest⟩ := bind_eq_ok.mp ok
    cases rest
    exact Or.inl rfl
  | queueColors colors =>
    cases ok
    exact Or.inr ⟨_, rfl⟩
  | updateLeds now =>
    obtain ⟨_, _, rest⟩ := bind_eq_ok.mp ok
    cases rest
    exact Or.inr ⟨_, rfl⟩

/-- The frame of tick `j` is the next one out at tick `j + delay`, when all
ticks in between find writing enabled. -/
theorem Traced.Follows.leaves {delay : Nat} {r : Rounding} {run next : Traced} {event : Event}
    (follows : run.Follows delay) (ok : run.step r event = .ok next) {j : Nat}
    {x : List ColorRgb} (count : run.ticks.length = j + delay)
    (enabled : ∀ i, j ≤ i → i ≤ j + delay → ∃ frame, next.ticks[i]? = some (true, frame))
    (offered : next.ticks[j]? = some (true, x)) :
    next.smoothing.written = x :: run.smoothing.written ∧
      run.smoothing.written.length = (DelayLine.entered (run.ticks.take j)).length := by
  obtain ⟨y, last⟩ := enabled (j + delay) (by omega) le_rfl
  obtain same | ⟨tick, appended⟩ := step_ticks ok
  · rw [same, ← count, List.getElem?_length] at last
    exact absurd last (Option.some_ne_none _).symm
  obtain rfl : tick = (true, y) := by
    simpa [appended, ← count] using last
  -- the ticks before `j`, and the `delay` ones from there on
  let before := run.ticks.take j
  let since := run.ticks.drop j
  have parts : before ++ since = run.ticks := List.take_append_drop j run.ticks
  have offsets : ∀ i, i < delay → since[i]? = next.ticks[j + i]? := by
    intro i small
    rw [appended, List.getElem?_append_left (by omega), List.getElem?_drop]
  have isOpen : ∀ tick ∈ since, tick.1 = true := by
    intro tick member
    obtain ⟨i, bound, rfl⟩ := List.getElem_of_mem member
    have small : i < delay := by
      have length : since.length = run.ticks.length - j := List.length_drop
      omega
    obtain ⟨frame, found⟩ := enabled (j + i) (by omega) (by omega)
    rw [← offsets i small, List.getElem?_eq_getElem bound] at found
    rw [Option.some.inj found]
  have length : since.length = delay := by
    rw [List.length_drop]
    omega
  have first : (since ++ [(true, y)]).head? = some (true, x) := by
    rw [← offered, appended, ← parts, List.append_assoc, List.getElem?_append_right,
      List.head?_eq_getElem?]
    · congr 1
      rw [List.length_take]
      omega
    · rw [List.length_take]
      omega
  have bounded : (DelayLine.run delay ⟨[], []⟩ before).queue.length ≤ delay :=
    DelayLine.run_length_le (Nat.zero_le delay) before
  obtain ⟨out, position⟩ := DelayLine.shift_after_open bounded isOpen length first
  have lineRun := follows.line
  rw [← parts, DelayLine.run_append] at lineRun
  have lineNext := (follows.step ok).line
  rw [appended, DelayLine.run_append, ← follows.line] at lineNext
  rw [← lineRun] at out position
  refine ⟨(congrArg DelayLine.outputs lineNext).trans out, position.trans ?_⟩
  rw [DelayLine.run_contents]
  rfl

/-- Frames reach the device in order and once each, at most `delay` of them
wait, and a frame is delayed by exactly `delay` ticks while writing is on. -/
theorem output_is_delayed (r : Rounding) (frequency : ℚ) (settling : Int) (delay : Nat)
    (continuous : Bool) {events : List Event} {run : Traced}
    (reached : Reaches (Traced.step r) (.start (new frequency settling delay continuous))
      events run) :
    run.smoothing.written.reverse ++ run.smoothing.outputQueue = DelayLine.entered run.ticks ∧
      run.smoothing.outputQueue.length ≤ delay ∧
      ∀ event next j x, run.step r event = .ok next → run.ticks.length = j + delay →
        (∀ i, j ≤ i → i ≤ j + delay → ∃ frame, next.ticks[i]? = some (true, frame)) →
        next.ticks[j]? = some (true, x) →
        next.smoothing.written = x :: run.smoothing.written ∧
          run.smoothing.written.length = (DelayLine.entered (run.ticks.take j)).length := by
  have follows := (Traced.start_follows frequency settling delay continuous).reaches reached
  refine ⟨?_, follows.bounded, fun event next j x ok count enabled offered =>
    follows.leaves ok count enabled offered⟩
  have contents := DelayLine.run_contents delay ⟨[], []⟩ run.ticks
  rwa [← follows.line] at contents

theorem output_is_delayed_toggled : ∃ run,
    Reaches (Traced.step .exact) (.start (new 25 200 1 false))
      [.write [⟨1, 1, 1⟩] 0 0, .updateLeds 40, .writeToLedsEnable false, .write [⟨9, 9, 9⟩] 60 60,
        .queueColors [⟨2, 2, 2⟩], .writeToLedsEnable true, .updateLeds 80] run ∧
    run.smoothing.written.reverse ++ run.smoothing.outputQueue =
      DelayLine.entered run.ticks := by
  have returned : evaluates (Traced.step .exact) (.ok (.start (new 25 200 1 false)))
      [.write [⟨1, 1, 1⟩] 0 0, .updateLeds 40, .writeToLedsEnable false, .write [⟨9, 9, 9⟩] 60 60,
        .queueColors [⟨2, 2, 2⟩], .writeToLedsEnable true, .updateLeds 80]
      (fun _ => true) = true := by decide +kernel
  obtain ⟨_, run, same, reached, -⟩ := exists_of_evaluates returned
  obtain rfl := Except.ok.inj same
  exact ⟨run, reached, (output_is_delayed .exact 25 200 1 false reached).1⟩

end LinearColorSmoothing

end HyperionNg
