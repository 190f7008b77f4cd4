import HyperionNg.SmoothingOutput

/-! The smoothing across a disable. Disabling stops the timer and forgets the
colours, but the frames of the output queue wait on: after enabling and a new
write they are the first to reach the device. -/

namespace HyperionNg

open Library Library.Execution

namespace LinearColorSmoothing

/-- A smoothing since it was disabled; `line` is its output from there on, every
frame with whether it was pushed before that. -/
structure Tagged where
  smoothing : LinearColorSmoothing
  line : DelayLine (Bool × List ColorRgb)
deriving DecidableEq

namespace Tagged

def start (s : LinearColorSmoothing) : Tagged := ⟨s, ⟨s.outputQueue.map (true, ·), []⟩⟩

/-- What an operation makes of the tagged line. `switchOff` pushes a black frame
for each that waits; a tick pushes its colours. -/
def after (tagged : Tagged) (next : LinearColorSmoothing) : Op → DelayLine (Bool × List ColorRgb)
  | .switchOff => { tagged.line with
      queue := List.replicate tagged.line.queue.length (false, next.targetValues) }
  | .updateLeds now =>
    if tagged.smoothing.timer.isSome then
      tagged.line.shift next.outputDelay (tagged.smoothing.enabledAt now)
        (false, next.previousValues)
    else tagged.line
  | _ => tagged.line

def step (r : Rounding) (tagged : Tagged) (op : Op) : Except Fault Tagged := do
  let smoothing ← tagged.smoothing.step r op
  pure ⟨smoothing, tagged.after smoothing op⟩

structure Labels (older : List (List ColorRgb)) (tagged : Tagged) : Prop where
  line : tagged.smoothing.line = (tagged.line.map Prod.snd).behind older
  bounded : tagged.smoothing.outputQueue.length ≤ tagged.smoothing.outputDelay

end Tagged

theorem step_tick {r : Rounding} {s : LinearColorSmoothing} (running : s.timer.isSome = true)
    (now : Int) : s.step r (.updateLeds now) = s.updateLeds r now := if_pos running

theorem setEnable_line (s : LinearColorSmoothing) (enable : Bool) :
    (s.setEnable enable).line = s.line ∧ (s.setEnable enable).outputDelay = s.outputDelay := by
  cases enable <;> exact ⟨rfl, rfl⟩

theorem step_bounded {r : Rounding} {s t : LinearColorSmoothing} {op : Op}
    (bounded : s.outputQueue.length ≤ s.outputDelay) (ok : s.step r op = .ok t) :
    t.outputQueue.length ≤ t.outputDelay ∧ t.outputDelay = s.outputDelay := by
  cases op with
  | write values now later =>
    obtain ⟨line, delay⟩ := write_line ok
    have queue : t.outputQueue = s.outputQueue := congrArg DelayLine.queue line
    exact ⟨by rwa [queue, delay], delay⟩
  | switchOff =>
    cases ok
    exact ⟨(List.length_replicate).trans_le bounded, rfl⟩
  | setEnable enable =>
    cases ok
    cases enable <;> exact ⟨bounded, rfl⟩
  | updateLeds now =>
    simp only [LinearColorSmoothing.step] at ok
    split_ifs at ok
    · obtain ⟨line, delay⟩ := updateLeds_line ok bounded
      have queue : t.outputQueue = _ := congrArg DelayLine.queue line
      rw [queue, delay]
      exact ⟨DelayLine.shift_length_le _ _ bounded, rfl⟩
    · cases ok
      exact ⟨bounded, rfl⟩

private theorem reaches_bounded {r : Rounding} {frequency : ℚ} {settling : Int} {delay : Nat}
    {continuous : Bool} {ops : List Op} {s : LinearColorSmoothing}
    (reached : Reaches (step r) (new frequency settling delay continuous) ops s) :
    s.outputQueue.length ≤ s.outputDelay :=
  reached.invariant (I := fun s => s.outputQueue.length ≤ s.outputDelay)
    (fun _ _ _ bounded ok => (step_bounded bounded ok).1) (Nat.zero_le delay)

namespace Tagged

theorem start_labels {s : LinearColorSmoothing} (bounded : s.outputQueue.length ≤ s.outputDelay) :
    (start s).Labels s.written where
  line := by
    simp [start, LinearColorSmoothing.line, DelayLine.map, DelayLine.behind, Function.comp_def]
  bounded := bounded

theorem Labels.step {r : Rounding} {older : List (List ColorRgb)} {tagged next : Tagged} {op : Op}
    (labels : tagged.Labels older) (ok : tagged.step r op = .ok next) : next.Labels older := by
  obtain ⟨smoothing, stepped, rest⟩ := bind_eq_ok.mp ok
  cases rest
  have kept := step_bounded labels.bounded stepped
  refine ⟨?_, kept.1⟩
  cases op with
  | write values now later => exact (write_line stepped).1.trans labels.line
  | setEnable enable =>
    cases stepped
    exact (setEnable_line _ enable).1.trans labels.line
  | switchOff =>
    cases stepped
    have queue : tagged.smoothing.outputQueue = tagged.line.queue.map Prod.snd :=
      congrArg DelayLine.queue labels.line
    have written : tagged.smoothing.written = tagged.line.outputs.map Prod.snd ++ older :=
      congrArg DelayLine.outputs labels.line
    simp [after, LinearColorSmoothing.line, DelayLine.map, DelayLine.behind,
      LinearColorSmoothing.switchOff, queue, written]
  | updateLeds now =>
    simp only [LinearColorSmoothing.step] at stepped
    simp only [after]
    split_ifs at stepped ⊢ with running
    · obtain ⟨line, delay⟩ := updateLeds_line stepped labels.bounded
      rw [line, labels.line, delay, DelayLine.shift_behind, ← DelayLine.shift_map]
    · cases stepped
      exact labels.line

private theorem labels_of_reaches {r : Rounding} {s : LinearColorSmoothing}
    (bounded : s.outputQueue.length ≤ s.outputDelay) {ops : List Op} {tagged : Tagged}
    (reached : Reaches (Tagged.step r) (.start s) ops tagged) : tagged.Labels s.written :=
  reached.invariant (fun _ _ _ labels ok => labels.step ok) (start_labels bounded)

def PushedSince (tagged : Tagged) : Prop := tagged.line.Since (fun frame => frame.1 = false) []

theorem PushedSince.step {r : Rounding} {tagged next : Tagged} {op : Op}
    (pushed : tagged.PushedSince) (ok : tagged.step r op = .ok next) : next.PushedSince := by
  obtain ⟨smoothing, stepped, rest⟩ := bind_eq_ok.mp ok
  cases rest
  cases op with
  | write values now later => exact pushed
  | setEnable enable => exact pushed
  | switchOff =>
    refine ⟨fun frame mem => ?_, pushed.outputs⟩
    rw [(List.mem_replicate.mp mem).2]
  | updateLeds now =>
    simp only [PushedSince, after]
    split_ifs with running
    · exact pushed.shift rfl _ _
    · exact pushed

end Tagged

/-- The smoothing behind frames that were written before. No operation reads
`enabled` or what was written. -/
def moved (s : LinearColorSmoothing) (older : List (List ColorRgb)) (enabled : Bool) :
    LinearColorSmoothing :=
  { s with enabled, written := s.written ++ older }

theorem queueColors_moved (s : LinearColorSmoothing) (older : List (List ColorRgb))
    (enabled : Bool) (colors : List ColorRgb) :
    (s.moved older enabled).queueColors colors = (s.queueColors colors).moved older enabled := by
  obtain ⟨_, _, delay, _, _, _, _, _, _, queue, gate, _, written⟩ := s
  by_cases immediate : delay = 0
  · cases gate <;> simp [queueColors, moved, immediate, setLedValues]
  · cases gate with
    | true =>
      cases queue with
      | nil =>
        by_cases full : delay < 1 <;>
          simp [queueColors, moved, immediate, full, setLedValues]
      | cons front rest =>
        by_cases full : delay < rest.length + 1 + 1 <;>
          simp [queueColors, moved, immediate, full, setLedValues]
    | false => cases queue <;> simp [queueColors, moved, immediate, setLedValues]

theorem updateLeds_moved {r : Rounding} {s t : LinearColorSmoothing} {now : Int}
    {older : List (List ColorRgb)} {enabled : Bool}
    (ok : (s.moved older enabled).updateLeds r now = .ok t) :
    ∃ u, s.updateLeds r now = .ok u ∧ t = u.moved older enabled := by
  unfold updateLeds at ok ⊢
  by_cases late : s.deltaTime now < 0
  · have late' : (s.moved older enabled).deltaTime now < 0 := late
    rw [if_pos late'] at ok
    rw [if_pos late]
    obtain ⟨values, copied, rest⟩ := bind_eq_ok.mp ok
    cases rest
    let ticked : LinearColorSmoothing := { s with previousValues := values, previousTime := now }
    let disables (q : LinearColorSmoothing) : LinearColorSmoothing :=
      { q with writeToLedsEnable := q.continuousOutput }
    refine ⟨disables (ticked.queueColors values), bind_eq_ok.mpr ⟨values, copied, rfl⟩, ?_⟩
    exact congrArg disables (queueColors_moved ticked older enabled values)
  · have late' : ¬ (s.moved older enabled).deltaTime now < 0 := late
    rw [if_neg late'] at ok
    rw [if_neg late]
    obtain ⟨values, approached, rest⟩ := bind_eq_ok.mp ok
    cases rest
    refine ⟨_, bind_eq_ok.mpr ⟨values, approached, rfl⟩, ?_⟩
    exact queueColors_moved { s with
      writeToLedsEnable := true, previousValues := values, previousTime := now }
      older enabled values

theorem step_moved {r : Rounding} {s t : LinearColorSmoothing} {op : Op}
    {older : List (List ColorRgb)} {enabled : Bool}
    (ok : (s.moved older enabled).step r op = .ok t) :
    ∃ u enabled', s.step r op = .ok u ∧ t = u.moved older enabled' := by
  cases op with
  | write values now later =>
    simp only [step, LinearColorSmoothing.write] at ok ⊢
    by_cases first : s.previousValues = []
    · have first' : (s.moved older enabled).previousValues = [] := first
      rw [if_pos first'] at ok
      cases ok
      rw [if_pos first]
      exact ⟨_, enabled, rfl, rfl⟩
    · have first' : ¬ (s.moved older enabled).previousValues = [] := first
      rw [if_neg first'] at ok
      rw [if_neg first]
      obtain ⟨target, copied, rest⟩ := bind_eq_ok.mp ok
      cases rest
      exact ⟨_, enabled, bind_eq_ok.mpr ⟨target, copied, rfl⟩, rfl⟩
  | switchOff =>
    cases ok
    exact ⟨_, enabled, rfl, rfl⟩
  | setEnable enable =>
    cases ok
    exact ⟨_, enable, rfl, by cases enable <;> rfl⟩
  | updateLeds now =>
    simp only [step] at ok ⊢
    by_cases running : s.timer.isSome = true
    · have running' : (s.moved older enabled).timer.isSome = true := running
      rw [if_pos running'] at ok
      rw [if_pos running]
      obtain ⟨u, ticked, same⟩ := updateLeds_moved ok
      exact ⟨u, enabled, ticked, same⟩
    · have running' : ¬ (s.moved older enabled).timer.isSome = true := running
      rw [if_neg running'] at ok
      cases ok
      rw [if_neg running]
      exact ⟨s, enabled, rfl, rfl⟩

theorem reaches_moved {r : Rounding} {s t : LinearColorSmoothing} {ops : List Op}
    {older : List (List ColorRgb)} {enabled : Bool}
    (run : Reaches (step r) (s.moved older enabled) ops t) :
    ∃ u, Reaches (step r) s ops u ∧ t.written = u.written ++ older := by
  induction ops generalizing s enabled with
  | nil =>
    obtain rfl := reaches_nil.mp run
    exact ⟨s, reaches_nil.mpr rfl, rfl⟩
  | cons op rest ih =>
    obtain ⟨v, stepped, run⟩ := reaches_cons.mp run
    obtain ⟨u, enabled', ok, rfl⟩ := step_moved stepped
    obtain ⟨w, reached, written⟩ := ih run
    exact ⟨w, reaches_cons.mpr ⟨u, ok, reached⟩, written⟩

/-- A smoothing as the constructor makes it, with the settings of `s` and the
flag that `s` is left with. -/
def renewed (s : LinearColorSmoothing) : LinearColorSmoothing where
  updateInterval := s.updateInterval
  settlingTime := s.settlingTime
  outputDelay := s.outputDelay
  continuousOutput := s.continuousOutput
  writeToLedsEnable := s.writeToLedsEnable

def Op.isWrite : Op → Bool
  | .write .. => true
  | _ => false

/-- What a disable and the calls up to the next write leave of `s`. -/
structure Idle (s t : LinearColorSmoothing) : Prop where
  timer : t.timer = none
  previous : t.previousValues = []
  renewed : t.renewed = s.renewed
  written : t.written = s.written
  queue : s.outputQueue = [] → t.outputQueue = []

private theorem idle_of_disable (s : LinearColorSmoothing) : Idle s (s.setEnable false) :=
  ⟨rfl, rfl, rfl, rfl, id⟩

theorem Idle.step {r : Rounding} {s t u : LinearColorSmoothing} {op : Op} (idle : Idle s t)
    (quiet : op.isWrite = false) (ok : t.step r op = .ok u) : Idle s u := by
  cases op with
  | write values now later => exact nomatch quiet
  | switchOff =>
    cases ok
    refine ⟨idle.timer, idle.previous, idle.renewed, idle.written, fun empty => ?_⟩
    simp [LinearColorSmoothing.switchOff, idle.queue empty]
  | setEnable enable =>
    cases ok
    cases enable with
    | true => exact ⟨idle.timer, idle.previous, idle.renewed, idle.written, idle.queue⟩
    | false => exact ⟨rfl, rfl, idle.renewed, idle.written, idle.queue⟩
  | updateLeds now =>
    have stopped : ¬ t.timer.isSome = true := by simp [idle.timer]
    rw [LinearColorSmoothing.step, if_neg stopped] at ok
    cases ok
    exact idle

theorem Idle.reaches {r : Rounding} {s t u : LinearColorSmoothing} {ops : List Op}
    (idle : Idle s t) (quiet : ∀ op ∈ ops, op.isWrite = false)
    (run : Reaches (LinearColorSmoothing.step r) t ops u) : Idle s u := by
  induction ops generalizing t with
  | nil => exact reaches_nil.mp run ▸ idle
  | cons op rest ih =>
    obtain ⟨v, stepped, run⟩ := reaches_cons.mp run
    exact ih (idle.step (quiet op List.mem_cons_self) stepped)
      (fun a mem => quiet a (List.mem_cons_of_mem _ mem)) run

theorem Idle.write {s t : LinearColorSmoothing} (idle : Idle s t) (empty : s.outputQueue = [])
    (values : List ColorRgb) (now later : Int) :
    ∃ u w, t.write values now later = .ok u ∧ s.renewed.write values now later = .ok w ∧
      u = w.moved s.written t.enabled := by
  refine ⟨_, _, if_pos idle.previous, if_pos rfl, ?_⟩
  have queue := idle.queue empty
  have settings := idle.renewed
  have written := idle.written
  obtain ⟨_, _, _, _, _, _, _, _, _, _, _, _, _⟩ := t
  simp only at queue written
  subst queue written
  simp only [LinearColorSmoothing.renewed, LinearColorSmoothing.mk.injEq] at settings
  simp [moved, LinearColorSmoothing.renewed, settings]

/-- A disable, an enable and the first write after it, then any calls. -/
def restart (disabled enabled : List Op) (values : List ColorRgb) (now later : Int)
    (rest : List Op) : List Op :=
  .setEnable false :: disabled ++ .setEnable true :: enabled ++ .write values now later :: rest

/-- The line stands for what was written since the disable of `s`. No frame of it
was pushed before, and those written are what a new smoothing writes for the
calls from the write on. -/
structure Tagged.OnlyNew (r : Rounding) (s : LinearColorSmoothing) (calls : List Op)
    (tagged : Tagged) : Prop where
  labels : tagged.Labels s.written
  pushedSince : ∀ frame ∈ tagged.line.outputs, frame.1 = false
  derived : ∃ fresh, Reaches (LinearColorSmoothing.step r) s.renewed calls fresh ∧
    tagged.smoothing.written = fresh.written ++ s.written

theorem Tagged.reaches_smoothing {r : Rounding} {tagged next : Tagged} {ops : List Op}
    (run : Reaches (Tagged.step r) tagged ops next) :
    Reaches (LinearColorSmoothing.step r) tagged.smoothing ops next.smoothing := by
  refine run.map fun s op t ok => ?_
  obtain ⟨smoothing, stepped, same⟩ := bind_eq_ok.mp ok
  cases same
  exact stepped

theorem restart_onlyNew {r : Rounding} {s : LinearColorSmoothing} (empty : s.outputQueue = [])
    {disabled enabled : List Op} (quiet : ∀ op ∈ disabled ++ enabled, op.isWrite = false)
    {values : List ColorRgb} {now later : Int} {rest : List Op} {tagged : Tagged}
    (run : Reaches (Tagged.step r) (.start s) (restart disabled enabled values now later rest)
      tagged) : tagged.OnlyNew r s (.write values now later :: rest) where
  labels := Tagged.labels_of_reaches (by simp [empty]) run
  pushedSince := by
    have start : (Tagged.start s).PushedSince :=
      ⟨by simp [Tagged.start, empty], [], rfl, nofun⟩
    obtain ⟨left, outputs, since⟩ :=
      (run.invariant (fun _ _ _ pushed ok => Tagged.PushedSince.step pushed ok) start).outputs
    rw [outputs, List.append_nil]
    exact since
  derived := by
    obtain ⟨t, before, from_write⟩ := reaches_append.mp (Tagged.reaches_smoothing run)
    obtain ⟨u, wasDisabled, wasEnabled⟩ := reaches_append.mp before
    obtain ⟨_, stepped, wasDisabled⟩ := reaches_cons.mp wasDisabled
    cases stepped
    have idle : Idle s u := (idle_of_disable s).reaches
      (fun op mem => quiet op (List.mem_append_left _ mem)) wasDisabled
    have still : ∀ op ∈ Op.setEnable true :: enabled, op.isWrite = false :=
      List.forall_mem_cons.mpr ⟨rfl, fun op mem => quiet op (List.mem_append_right _ mem)⟩
    have idle : Idle s t := idle.reaches still wasEnabled
    obtain ⟨v, stepped, after⟩ := reaches_cons.mp from_write
    obtain ⟨_, w, written, fresh, rfl⟩ := idle.write empty values now later
    obtain rfl := Except.ok.inj (written.symm.trans stepped)
    obtain ⟨x, reached, same⟩ := reaches_moved after
    exact ⟨x, reaches_cons.mpr ⟨w, fresh, reached⟩, same⟩

theorem exists_late (r : Rounding) {s : LinearColorSmoothing} {now : Int}
    (late : s.deltaTime now < 0) (lengths : s.targetValues.length = s.previousValues.length)
    (bounded : s.outputQueue.length ≤ s.outputDelay) :
    ∃ t, s.updateLeds r now = .ok t ∧ t.timer = s.timer ∧ t.targetTime = s.targetTime ∧
      t.targetValues = s.targetValues ∧ t.previousValues = s.targetValues ∧
      t.outputDelay = s.outputDelay :=
  ⟨_, updateLeds_late r late lengths bounded, rfl, rfl, rfl, rfl, rfl⟩

theorem Tagged.late_ticks (r : Rounding) {now : Int} (n : Nat) {tagged : Tagged}
    (running : tagged.smoothing.timer.isSome = true)
    (late : tagged.smoothing.deltaTime now < 0)
    (lengths : tagged.smoothing.targetValues.length = tagged.smoothing.previousValues.length)
    (bounded : tagged.smoothing.outputQueue.length ≤ tagged.smoothing.outputDelay) :
    ∃ next ticks, Reaches (Tagged.step r) tagged (List.replicate n (.updateLeds now)) next ∧
      ticks.length = n ∧
      next.line = DelayLine.run tagged.smoothing.outputDelay tagged.line ticks := by
  induction n generalizing tagged with
  | zero => exact ⟨tagged, [], reaches_nil.mpr rfl, rfl, rfl⟩
  | succ n ih =>
    obtain ⟨t, ticked, timer, time, target, previous, delay⟩ :=
      exists_late r late lengths bounded
    have stepped := (step_tick running now).trans ticked
    obtain ⟨next, ticks, run, count, line⟩ := @ih ⟨t, tagged.after t (.updateLeds now)⟩
      (timer ▸ running) (by rw [deltaTime, time]; exact late) (by rw [target, previous])
      (step_bounded bounded stepped).1
    refine ⟨next, (tagged.smoothing.enabledAt now, false, t.previousValues) :: ticks,
      reaches_cons.mpr ⟨_, bind_eq_ok.mpr ⟨t, stepped, rfl⟩, run⟩, congrArg Nat.succ count, ?_⟩
    rw [line, after, if_pos running, delay]
    rfl

theorem exists_shown_before (r : Rounding) {s : LinearColorSmoothing}
    (bounded : s.outputQueue.length ≤ s.outputDelay) (waits : s.outputQueue ≠ []) :
    ∃ rest tagged, Reaches (Tagged.step r) (.start s) (restart [] [] [] 0 0 rest) tagged ∧
      ∃ frame, (true, frame) ∈ tagged.line.outputs := by
  obtain ⟨front, behind, queue⟩ := List.exists_cons_of_ne_nil waits
  let written : LinearColorSmoothing := { s with
    enabled := true
    targetTime := 0 + s.settlingTime
    targetValues := []
    previousTime := 0
    previousValues := []
    timer := some s.updateInterval }
  have late : written.deltaTime (s.settlingTime + 1) < 0 := by
    have difference : 0 + s.settlingTime - (s.settlingTime + 1) = -1 := by omega
    rw [deltaTime, difference]
    decide
  obtain ⟨tagged, ticks, run, count, line⟩ := @Tagged.late_ticks r _ (s.outputDelay + 1)
    ⟨written, (Tagged.start s).line⟩ rfl late rfl bounded
  have waiting : (Tagged.start s).line.queue = (true, front) :: behind.map (true, ·) := by
    simp [Tagged.start, queue]
  have length : (Tagged.start s).line.queue.length = s.outputQueue.length := by
    simp [Tagged.start]
  obtain ⟨left, outputs, shown⟩ := DelayLine.front_leaves waiting (length.trans_le bounded)
    (show s.outputDelay < (Tagged.start s).line.queue.length + ticks.length by omega)
  refine ⟨_, tagged, reaches_cons.mpr ⟨_, rfl, reaches_cons.mpr ⟨_, rfl,
    reaches_cons.mpr ⟨_, rfl, run⟩⟩⟩, front, ?_⟩
  rw [line, outputs]
  exact List.mem_append_left _ shown

/-- After a disable, whatever comes between it and the next write, only new
frames are written exactly when none waited in the queue. -/
theorem restart_onlyNew_iff (r : Rounding) {frequency : ℚ} {settling : Int} {delay : Nat}
    {continuous : Bool} {ops : List Op} {s : LinearColorSmoothing}
    (reached : Reaches (step r) (new frequency settling delay continuous) ops s) :
    (∀ disabled enabled values now later rest tagged,
      (∀ op ∈ disabled ++ enabled, op.isWrite = false) →
      Reaches (Tagged.step r) (.start s) (restart disabled enabled values now later rest) tagged →
      tagged.OnlyNew r s (.write values now later :: rest)) ↔ s.outputQueue = [] := by
  constructor
  · intro onlyNew
    by_contra waits
    obtain ⟨rest, tagged, run, frame, shown⟩ :=
      exists_shown_before r (reaches_bounded reached) waits
    exact nomatch (onlyNew [] [] [] 0 0 rest tagged nofun run).pushedSince (true, frame) shown
  · intro empty disabled enabled values now later rest tagged quiet run
    exact restart_onlyNew empty quiet run

theorem restart_onlyNew_iff_waiting : ∃ s,
    Reaches (step .exact) (new 25 200 1 false) [.write [⟨0, 0, 0⟩] 0 0, .updateLeds 40] s ∧
    ((∀ disabled enabled values now later rest tagged,
      (∀ op ∈ disabled ++ enabled, op.isWrite = false) →
      Reaches (Tagged.step .exact) (.start s) (restart disabled enabled values now later rest)
        tagged → tagged.OnlyNew .exact s (.write values now later :: rest)) ↔
      s.outputQueue = []) := by
  have returned : evaluates (step .exact) (.ok (new 25 200 1 false))
      [.write [⟨0, 0, 0⟩] 0 0, .updateLeds 40] (fun _ => true) = true := by decide +kernel
  obtain ⟨_, s, same, reached, -⟩ := exists_of_evaluates returned
  obtain rfl := Except.ok.inj same
  exact ⟨s, reached, restart_onlyNew_iff .exact reached⟩

/-- The frame of the first session is the first one the second session shows. -/
theorem not_onlyNew_after_restart : ∃ s tagged,
    Reaches (step .exact) (new 25 200 1 false) [.write [⟨1, 1, 1⟩] 0 0, .updateLeds 40] s ∧
    Reaches (Tagged.step .exact) (.start s)
      (restart [] [] [⟨9, 9, 9⟩] 1000 1000 [.updateLeds 1040]) tagged ∧
    (true, [⟨1, 1, 1⟩]) ∈ tagged.line.outputs ∧
    tagged.smoothing.written = [⟨1, 1, 1⟩] :: s.written := by
  have returned : evaluates (step .exact) (.ok (new 25 200 1 false))
      [.write [⟨1, 1, 1⟩] 0 0, .updateLeds 40]
      (fun s => evaluates (Tagged.step .exact) (.ok (.start s))
        (restart [] [] [⟨9, 9, 9⟩] 1000 1000 [.updateLeds 1040])
        (fun tagged => decide ((true, [⟨1, 1, 1⟩]) ∈ tagged.line.outputs ∧
          tagged.smoothing.written = [⟨1, 1, 1⟩] :: s.written))) = true := by decide +kernel
  obtain ⟨_, s, same, reached, restarted⟩ := exists_of_evaluates returned
  obtain rfl := Except.ok.inj same
  obtain ⟨_, tagged, same, run, shown⟩ := exists_of_evaluates restarted
  obtain rfl := Except.ok.inj same
  exact ⟨s, tagged, reached, run, of_decide_eq_true shown⟩

end LinearColorSmoothing

end HyperionNg
