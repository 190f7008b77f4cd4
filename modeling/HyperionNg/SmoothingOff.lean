import HyperionNg.SmoothingRestart

/-! The smoothing after `switchOff`. The target becomes black and its time 0, so
that a tick takes it over at once only where 0 less the clock, narrowed to
`int`, is negative; and the black frame is queued only where writing is on. -/

namespace HyperionNg

open Library Library.Execution

theorem approach_self (r : Rounding) (k : ℚ) (v : UInt8) : approach r (some k) v v = .ok v := by
  have small : (v.toNat : Int) < 256 := Int.ofNat_lt.mpr v.toNat_lt
  have stays : narrowUInt8 v.toNat = .ok v := by
    rw [narrowUInt8, if_pos ⟨Int.natCast_nonneg _, small⟩, Int.toNat_natCast, UInt8.ofNat_toNat]
  simpa [approach] using stays

theorem approachValues_self (r : Rounding) (k : ℚ) (colors : List ColorRgb) :
    approachValues r (some k) colors colors = .ok colors := by
  induction colors with
  | nil => rfl
  | cons color colors ih =>
    have same : approachColor r (some k) color color = .ok color := by
      simp only [approachColor, approach_self]
      rfl
    simp only [approachValues, same, ih]
    rfl

theorem length_of_approachValues {r : Rounding} {k : Option ℚ} {prevs targets vs : List ColorRgb}
    (ok : approachValues r k prevs targets = .ok vs) : vs.length = prevs.length := by
  induction prevs generalizing targets vs with
  | nil =>
    cases ok
    rfl
  | cons prev prevs ih =>
    cases targets with
    | nil => exact nomatch ok
    | cons target targets =>
      obtain ⟨color, _, ok⟩ := bind_eq_ok.mp ok
      obtain ⟨colors, rest, ok⟩ := bind_eq_ok.mp ok
      cases ok
      exact congrArg Nat.succ (ih rest)

theorem length_of_memcpy {α : Type} {dest source copied : List α}
    (ok : memcpy dest source = .ok copied) : copied.length = dest.length := by
  unfold memcpy at ok
  split_ifs at ok with fits
  cases ok
  rw [List.length_append, List.length_drop]
  omega

namespace LinearColorSmoothing

structure Paired (s : LinearColorSmoothing) : Prop where
  idle : s.timer.isSome = false → s.previousValues = []
  lengths : s.timer.isSome = true → s.previousValues.length = s.targetValues.length
  bounded : s.outputQueue.length ≤ s.outputDelay
  continuous : s.continuousOutput = true → s.writeToLedsEnable = true

structure Ticked (s t : LinearColorSmoothing) (now : Int) : Prop where
  timer : t.timer = s.timer
  targetTime : t.targetTime = s.targetTime
  targetValues : t.targetValues = s.targetValues
  continuous : t.continuousOutput = s.continuousOutput
  flag : t.writeToLedsEnable = if s.deltaTime now < 0 then s.continuousOutput else true
  length : t.previousValues.length = s.previousValues.length

theorem ticked_of_updateLeds {r : Rounding} {s t : LinearColorSmoothing} {now : Int}
    (ok : s.updateLeds r now = .ok t) (bounded : s.outputQueue.length ≤ s.outputDelay) :
    Ticked s t now := by
  unfold updateLeds at ok
  by_cases late : s.deltaTime now < 0
  · rw [if_pos late] at ok
    obtain ⟨values, copied, rest⟩ := bind_eq_ok.mp ok
    cases rest
    have queued := queueColors_eq { s with previousValues := values, previousTime := now } values
      bounded
    refine ⟨?_, ?_, ?_, ?_, ?_, ?_⟩ <;> simp only [queued]
    · exact (if_pos late).symm
    · exact length_of_memcpy copied
  · rw [if_neg late] at ok
    obtain ⟨values, approached, rest⟩ := bind_eq_ok.mp ok
    cases rest
    have queued := queueColors_eq { s with
      writeToLedsEnable := true, previousValues := values, previousTime := now } values bounded
    refine ⟨?_, ?_, ?_, ?_, ?_, ?_⟩ <;> simp only [queued]
    · exact (if_neg late).symm
    · exact length_of_approachValues approached

theorem Paired.step {r : Rounding} {s t : LinearColorSmoothing} {op : Op} (paired : s.Paired)
    (ok : s.step r op = .ok t) : t.Paired := by
  have bounded := (step_bounded paired.bounded ok).1
  cases op with
  | write values now later =>
    simp only [LinearColorSmoothing.step, LinearColorSmoothing.write] at ok
    split_ifs at ok with first
    · cases ok
      exact ⟨fun stopped => absurd stopped.symm Bool.false_ne_true, fun _ => rfl, bounded,
        paired.continuous⟩
    · obtain ⟨target, copied, rest⟩ := bind_eq_ok.mp ok
      cases rest
      exact ⟨paired.idle, fun running =>
        (paired.lengths running).trans (length_of_memcpy copied).symm, bounded, paired.continuous⟩
  | switchOff =>
    cases ok
    exact ⟨paired.idle, fun running => (paired.lengths running).trans List.length_replicate.symm,
      bounded, paired.continuous⟩
  | setEnable enable =>
    cases ok
    cases enable with
    | true => exact ⟨paired.idle, paired.lengths, bounded, paired.continuous⟩
    | false =>
      exact ⟨fun _ => rfl, fun running => absurd running Bool.false_ne_true, bounded,
        paired.continuous⟩
  | updateLeds now =>
    simp only [LinearColorSmoothing.step] at ok
    split_ifs at ok with running
    · have ticked := ticked_of_updateLeds ok paired.bounded
      refine ⟨fun stopped => ?_, fun _ => ?_, bounded, fun continuous => ?_⟩
      · rw [ticked.timer, running] at stopped
        exact absurd stopped.symm Bool.false_ne_true
      · rw [ticked.length, ticked.targetValues, paired.lengths running]
      · rw [ticked.flag, ← ticked.continuous, continuous, ite_self]
    · cases ok
      exact paired

private theorem paired_of_reaches {r : Rounding} {frequency : ℚ} {settling : Int} {delay : Nat}
    {continuous : Bool} {ops : List Op} {s : LinearColorSmoothing}
    (reached : Reaches (step r) (new frequency settling delay continuous) ops s) : s.Paired :=
  reached.invariant (fun _ _ _ paired ok => Paired.step paired ok)
    ⟨fun _ => rfl, nofun, Nat.zero_le delay, fun _ => rfl⟩

/-- The colours and the frames of a smoothing that shows black since `older` was
written; `count` is the number of its colours. -/
structure Dark (count : Nat) (older : List (List ColorRgb)) (s : LinearColorSmoothing) :
    Prop where
  paired : s.Paired
  targetTime : s.targetTime = 0
  targetValues : s.targetValues = List.replicate count .black
  line : s.line.Since (fun frame => frame = List.replicate count .black) older

theorem Paired.switchOff_dark {s : LinearColorSmoothing} (paired : s.Paired) :
    s.switchOff.Dark s.targetValues.length s.written where
  paired := by
    have stepped : s.step Rounding.exact .switchOff = .ok s.switchOff := rfl
    exact paired.step stepped
  targetTime := rfl
  targetValues := rfl
  line := ⟨fun _ mem => (List.mem_replicate.mp mem).2, [], rfl, nofun⟩

/-- The tick takes the branch of the late ticks; or its difference is 0, or
nothing is left to dim, and it has a time to divide by. -/
def TakesOff (s : LinearColorSmoothing) : Op → Prop
  | .updateLeds now => s.timer.isSome = true → s.deltaTime now < 0 ∨
      s.previousTime ≠ 0 ∧ (s.deltaTime now = 0 ∨ ∀ color ∈ s.previousValues, color = .black)
  | _ => True

def Dims (r : Rounding) (s : LinearColorSmoothing) : Op → Prop
  | .updateLeds now => ∃ t, s.step r (.updateLeds now) = .ok t ∧
      t.previousValues.length = s.previousValues.length ∧
      ∀ (i : Nat) (prev value : ColorRgb), s.previousValues[i]? = some prev →
        t.previousValues[i]? = some value →
        ∀ channel : Channel, channel.ofColor value ≤ channel.ofColor prev
  | _ => True

theorem exists_early {r : Rounding} {s : LinearColorSmoothing} {now : Int}
    (early : ¬ s.deltaTime now < 0) {values : List ColorRgb}
    (moved : approachValues r (fraction r (s.deltaTime now) (s.targetTime - s.previousTime))
      s.previousValues s.targetValues = .ok values)
    (bounded : s.outputQueue.length ≤ s.outputDelay) :
    ∃ t, s.updateLeds r now = .ok t ∧ t.previousValues = values := by
  unfold updateLeds
  rw [if_neg early]
  have shown := (queueColors_line (s := { s with
    writeToLedsEnable := true, previousValues := values, previousTime := now }) values bounded).2.2
  exact ⟨_, bind_eq_ok.mpr ⟨values, moved, rfl⟩, shown⟩

theorem Dark.tick {r : Rounding} {count : Nat} {older : List (List ColorRgb)}
    {s : LinearColorSmoothing} {now : Int} (dark : s.Dark count older)
    (running : s.timer.isSome = true) (takesOff : s.TakesOff (.updateLeds now)) :
    ∃ t, s.updateLeds r now = .ok t ∧ t.previousValues = List.replicate count .black ∧
      t.line = s.line.shift s.outputDelay (s.enabledAt now) (List.replicate count .black) := by
  have lengths := dark.paired.lengths running
  have shifted : ∀ t, s.updateLeds r now = .ok t → t.previousValues = List.replicate count .black →
      ∃ t, s.updateLeds r now = .ok t ∧ t.previousValues = List.replicate count .black ∧
        t.line = s.line.shift s.outputDelay (s.enabledAt now) (List.replicate count .black) :=
    fun t ok black => ⟨t, ok, black, black ▸ (updateLeds_line ok dark.paired.bounded).1⟩
  by_cases late : s.deltaTime now < 0
  · obtain ⟨t, ok, -, -, -, previous, -⟩ := exists_late r late lengths.symm dark.paired.bounded
    exact shifted t ok (previous.trans dark.targetValues)
  · obtain ⟨past, rest⟩ := (takesOff running).resolve_left late
    have span : s.targetTime - s.previousTime ≠ 0 := by
      rw [dark.targetTime]
      omega
    have moved : approachValues r (fraction r (s.deltaTime now) (s.targetTime - s.previousTime))
        s.previousValues s.targetValues = .ok s.targetValues := by
      rw [fraction, if_neg span]
      rcases rest with zero | black
      · rw [zero, Int.cast_zero, r.round_zero, zero_div, r.round_zero, sub_zero, r.round_one]
        obtain ⟨vs, ok, -, -, whole⟩ := approachValues_returns r
          (Set.right_mem_Icc.mpr zero_le_one) lengths
        rw [ok, whole rfl]
      · have same : s.previousValues = s.targetValues := by
          rw [dark.targetValues]
          refine List.eq_replicate_of_mem black |>.trans ?_
          rw [lengths, dark.targetValues, List.length_replicate]
        rw [same]
        exact approachValues_self r _ _
    obtain ⟨t, ok, shown⟩ := exists_early late moved dark.paired.bounded
    exact shifted t ok (shown.trans dark.targetValues)

theorem Dark.switchOff {count : Nat} {older : List (List ColorRgb)} {s : LinearColorSmoothing}
    (dark : s.Dark count older) :
    s.switchOff.line = s.line ∧ s.switchOff.targetValues = s.targetValues := by
  have target : List.replicate s.targetValues.length .black = s.targetValues := by
    rw [dark.targetValues, List.length_replicate]
  have queue : List.replicate s.outputQueue.length s.targetValues = s.outputQueue := by
    refine (List.eq_replicate_of_mem fun frame mem => ?_).symm
    rw [dark.line.queue frame mem, dark.targetValues]
  refine ⟨?_, target⟩
  simp only [LinearColorSmoothing.switchOff, target, queue]
  rfl

theorem Dark.step {r : Rounding} {count : Nat} {older : List (List ColorRgb)}
    {s t : LinearColorSmoothing} {op : Op} (dark : s.Dark count older)
    (quiet : op.isWrite = false) (takesOff : s.TakesOff op) (ok : s.step r op = .ok t) :
    t.Dark count older := by
  have paired := dark.paired.step ok
  cases op with
  | write values now later => exact nomatch quiet
  | switchOff =>
    cases ok
    obtain ⟨line, target⟩ := dark.switchOff
    exact ⟨paired, rfl, target.trans dark.targetValues, line ▸ dark.line⟩
  | setEnable enable =>
    cases ok
    have line := (setEnable_line s enable).1
    refine ⟨paired, ?_, ?_, line ▸ dark.line⟩
    · cases enable <;> exact dark.targetTime
    · cases enable <;> exact dark.targetValues
  | updateLeds now =>
    by_cases running : s.timer.isSome = true
    · rw [step_tick running] at ok
      obtain ⟨u, ok', -, line⟩ := dark.tick (r := r) running takesOff
      obtain rfl : u = t := Except.ok.inj (ok'.symm.trans ok)
      have ticked := ticked_of_updateLeds ok dark.paired.bounded
      exact ⟨paired, ticked.targetTime.trans dark.targetTime,
        ticked.targetValues.trans dark.targetValues, line ▸ dark.line.shift rfl _ _⟩
    · rw [LinearColorSmoothing.step, if_neg running] at ok
      cases ok
      exact dark

theorem Dark.dims {r : Rounding} {count : Nat} {older : List (List ColorRgb)}
    {s : LinearColorSmoothing} {op : Op} (dark : s.Dark count older) (takesOff : s.TakesOff op) :
    s.Dims r op := by
  cases op with
  | updateLeds now =>
    by_cases running : s.timer.isSome = true
    · obtain ⟨t, ok, black, -⟩ := dark.tick (r := r) running takesOff
      have ticked := ticked_of_updateLeds ok dark.paired.bounded
      refine ⟨t, (step_tick running now).trans ok, ticked.length, ?_⟩
      intro i prev value _ shown channel
      rw [black] at shown
      have dimmed : value = .black := List.eq_of_mem_replicate (List.mem_of_getElem? shown)
      cases channel <;> exact dimmed ▸ UInt8.zero_le
    · refine ⟨s, if_neg running, rfl, ?_⟩
      intro i prev value before shown channel
      rw [Option.some.inj (before.symm.trans shown)]
      exact UInt8.le_refl _
  | write values now later => trivial
  | switchOff => trivial
  | setEnable enable => trivial

theorem Dark.returns {r : Rounding} {count : Nat} {older : List (List ColorRgb)}
    {s : LinearColorSmoothing} {op : Op} (dark : s.Dark count older) (quiet : op.isWrite = false)
    (takesOff : s.TakesOff op) : ∃ t, s.step r op = .ok t := by
  cases op with
  | write values now later => exact nomatch quiet
  | switchOff => exact ⟨_, rfl⟩
  | setEnable enable => exact ⟨_, rfl⟩
  | updateLeds now =>
    obtain ⟨t, ok, -⟩ := dark.dims (r := r) takesOff
    exact ⟨t, ok⟩

def Op.ticks (ops : List Op) : List Int :=
  ops.filterMap fun op => match op with
    | .updateLeds now => some now
    | _ => none

/-- A call that keeps the timer running and the target where it is. -/
def Op.keepsRunning : Op → Bool
  | .switchOff => true
  | .setEnable enable => enable
  | .updateLeds _ => true
  | .write .. => false

theorem Op.isWrite_of_keepsRunning {op : Op} (keeps : op.keepsRunning = true) :
    op.isWrite = false := by
  cases op with
  | write values now later => exact nomatch keeps
  | switchOff => rfl
  | setEnable enable => rfl
  | updateLeds now => rfl

theorem Dark.shifts {r : Rounding} {count : Nat} {older : List (List ColorRgb)}
    {s t : LinearColorSmoothing} {ops : List Op} (dark : s.Dark count older)
    (running : s.timer.isSome = true) (keeps : ∀ op ∈ ops, op.keepsRunning = true)
    (takesOff : Along (LinearColorSmoothing.step r) TakesOff s ops)
    (run : Reaches (LinearColorSmoothing.step r) s ops t) :
    ∃ shifts, t.line = DelayLine.run s.outputDelay s.line shifts ∧
      shifts.map Prod.snd = (Op.ticks ops).map (fun _ => List.replicate count .black) ∧
      ∀ now ∈ (Op.ticks ops).head?, shifts.head?.map Prod.fst = some (s.enabledAt now) := by
  induction ops generalizing s with
  | nil =>
    obtain rfl := reaches_nil.mp run
    exact ⟨[], rfl, rfl, nofun⟩
  | cons op rest ih =>
    obtain ⟨u, ok, run⟩ := reaches_cons.mp run
    have head := keeps op List.mem_cons_self
    have quiet := Op.isWrite_of_keepsRunning head
    have next := dark.step quiet takesOff.1 ok
    have later := fun running' => ih next running'
      (fun a mem => keeps a (List.mem_cons_of_mem _ mem)) (takesOff.2 u ok) run
    have delay := (step_bounded dark.paired.bounded ok).2
    cases op with
    | write values now later => exact nomatch head
    | switchOff =>
      cases ok
      obtain ⟨shifts, line, frames, first⟩ := later running
      refine ⟨shifts, line.trans ?_, frames, fun now mem => (first now mem).trans ?_⟩
      · rw [dark.switchOff.1]
        rfl
      · rw [enabledAt, enabledAt, deltaTime, deltaTime, dark.targetTime]
        rfl
    | setEnable enable =>
      obtain rfl : enable = true := head
      cases ok
      exact later running
    | updateLeds now =>
      rw [step_tick running] at ok
      obtain ⟨v, ok', black, line⟩ := dark.tick (r := r) running takesOff.1
      obtain rfl : v = u := Except.ok.inj (ok'.symm.trans ok)
      have ticked := ticked_of_updateLeds ok dark.paired.bounded
      obtain ⟨shifts, rest, frames, -⟩ := later (ticked.timer ▸ running)
      refine ⟨(s.enabledAt now, List.replicate count .black) :: shifts, ?_, ?_, ?_⟩
      · rw [rest, line, delay]
        rfl
      · exact congrArg (List.replicate count ColorRgb.black :: ·) frames
      · rintro _ ⟨⟩
        rfl

/-- A frame waits when the black one is due, or the first tick queues one. -/
def Sends (s : LinearColorSmoothing) (ticks : List Int) : Prop :=
  s.outputQueue ≠ [] ∨ ∃ now ∈ ticks.head?, s.switchOff.enabledAt now = true

theorem Dark.sends {r : Rounding} {count : Nat} {s t : LinearColorSmoothing}
    {ops : List Op} (dark : s.switchOff.Dark count s.written) (running : s.timer.isSome = true)
    (keeps : ∀ op ∈ ops, op.keepsRunning = true)
    (takesOff : Along (LinearColorSmoothing.step r) TakesOff s.switchOff ops)
    (run : Reaches (LinearColorSmoothing.step r) s.switchOff ops t)
    (enough : s.outputDelay < (Op.ticks ops).length) (sends : s.Sends (Op.ticks ops)) :
    t.written ≠ s.written := by
  obtain ⟨shifts, line, frames, first⟩ := dark.shifts running keeps takesOff run
  have length : shifts.length = (Op.ticks ops).length := by
    simpa using congrArg List.length frames
  have fed : s.switchOff.line.queue ≠ [] ∨ shifts.head?.map Prod.fst = some true := by
    rcases sends with waits | ⟨now, mem, enabled⟩
    · refine Or.inl fun empty => waits (List.eq_nil_of_length_eq_zero ?_)
      have count : s.switchOff.outputQueue.length = s.outputQueue.length := List.length_replicate
      rw [← count]
      exact congrArg List.length empty
    · exact Or.inr ((first now mem).trans (congrArg some enabled))
  obtain ⟨left, outputs, some⟩ := DelayLine.run_leaves dark.paired.bounded
    (length ▸ enough) fed
  rw [← line] at outputs
  intro same
  have none : left ++ s.written = [] ++ s.written := outputs.symm.trans same
  exact some (List.append_cancel_right none)

theorem Paired.sends_nothing {r : Rounding} {s t : LinearColorSmoothing} {ops : List Op}
    (paired : s.Paired) (black : s.targetTime = 0) (shut : s.writeToLedsEnable = false)
    (empty : s.outputQueue = []) (keeps : ∀ op ∈ ops, op.keepsRunning = true)
    (late : ∀ now ∈ Op.ticks ops, s.deltaTime now < 0)
    (run : Reaches (LinearColorSmoothing.step r) s ops t) : t.written = s.written := by
  induction ops generalizing s with
  | nil => rw [reaches_nil.mp run]
  | cons op rest ih =>
    obtain ⟨u, ok, later⟩ := reaches_cons.mp run
    have next := paired.step ok
    have others : ∀ op ∈ rest, op.keepsRunning = true :=
      fun a mem => keeps a (List.mem_cons_of_mem _ mem)
    have head := keeps op List.mem_cons_self
    cases op with
    | write values now later => exact absurd head Bool.false_ne_true
    | switchOff =>
      cases ok
      refine ih (s := s.switchOff) next rfl shut ?_ others (fun now mem => ?_) later
      · rw [LinearColorSmoothing.switchOff, empty]
        rfl
      · have before := late now mem
        rw [deltaTime, black] at before
        exact before
    | setEnable enable =>
      obtain rfl : enable = true := head
      cases ok
      exact ih (s := s.setEnable true) next black shut empty others late later
    | updateLeds now =>
      by_cases running : s.timer.isSome = true
      · rw [step_tick running] at ok
        obtain ⟨line, -⟩ := updateLeds_line ok paired.bounded
        have ticked := ticked_of_updateLeds ok paired.bounded
        have first : s.deltaTime now < 0 := late now List.mem_cons_self
        have still : u.line = s.line := by
          rw [line, enabledAt, if_pos first, shut]
          simp only [DelayLine.shift, DelayLine.pop, LinearColorSmoothing.line, empty]
          rfl
        have once : s.continuousOutput = false := by
          by_contra continuous
          rw [paired.continuous (by simpa using continuous)] at shut
          exact absurd shut.symm Bool.false_ne_true
        have written : u.written = s.written := congrArg DelayLine.outputs still
        refine (ih next (ticked.targetTime.trans black) ?_ ?_ others
          (fun tick mem => ?_) later).trans
          written
        · rw [ticked.flag, if_pos first, once]
        · exact (congrArg DelayLine.queue still).trans empty
        · rw [deltaTime, ticked.targetTime]
          exact late tick (List.mem_cons_of_mem _ mem)
      · rw [LinearColorSmoothing.step, if_neg running] at ok
        cases ok
        exact ih paired black shut empty others
          (fun tick mem => late tick (List.mem_cons_of_mem _ mem)) later

theorem Dark.run {r : Rounding} {count : Nat} {older : List (List ColorRgb)}
    {s : LinearColorSmoothing} {ops : List Op} (dark : s.Dark count older)
    (quiet : ∀ op ∈ ops, op.isWrite = false)
    (takesOff : Along (LinearColorSmoothing.step r) TakesOff s ops) :
    Along (LinearColorSmoothing.step r) (Dims r) s ops ∧
      ∃ t, Reaches (LinearColorSmoothing.step r) s ops t ∧ t.Dark count older := by
  induction ops generalizing s with
  | nil => exact ⟨trivial, s, reaches_nil.mpr rfl, dark⟩
  | cons op rest ih =>
    have head := quiet op List.mem_cons_self
    have others : ∀ op ∈ rest, op.isWrite = false :=
      fun a mem => quiet a (List.mem_cons_of_mem _ mem)
    obtain ⟨u, ok⟩ := dark.returns (r := r) head takesOff.1
    have next := fun v ok => ih (dark.step head takesOff.1 ok) others (takesOff.2 v ok)
    obtain ⟨-, t, run, darkT⟩ := next u ok
    exact ⟨⟨dark.dims takesOff.1, fun v ok => (next v ok).1⟩, t,
      reaches_cons.mpr ⟨u, ok, run⟩, darkT⟩

/-- After `switchOff`, in a run without a write whose ticks take the black over,
no tick brightens a channel and only black frames are sent. As the timer runs
on, `outputDelay + 1` ticks send one if one waits or the first tick queues one;
late ticks alone send none otherwise. -/
theorem switchOff_darkens (r : Rounding) {frequency : ℚ} {settling : Int} {delay : Nat}
    {continuous : Bool} {before : List Op} {s : LinearColorSmoothing}
    (reached : Reaches (step r) (new frequency settling delay continuous) before s)
    {ops : List Op} (quiet : ∀ op ∈ ops, op.isWrite = false)
    (takesOff : Along (step r) TakesOff s.switchOff ops) :
    Along (step r) (Dims r) s.switchOff ops ∧
      ∃ t sent, Reaches (step r) s.switchOff ops t ∧ t.written = sent ++ s.written ∧
        (∀ frame ∈ sent, frame = List.replicate s.targetValues.length .black) ∧
        (s.timer.isSome = true → (∀ op ∈ ops, op.keepsRunning = true) →
          s.outputDelay < (Op.ticks ops).length →
          (s.Sends (Op.ticks ops) → sent ≠ []) ∧
          ((∀ now ∈ Op.ticks ops, s.switchOff.deltaTime now < 0) → sent ≠ [] →
            s.Sends (Op.ticks ops))) := by
  have paired := paired_of_reaches reached
  have dark := paired.switchOff_dark
  obtain ⟨dims, t, run, darkT⟩ := dark.run quiet takesOff
  obtain ⟨sent, written, black⟩ := darkT.line.outputs
  refine ⟨dims, t, sent, run, written, black, fun running keeps enough => ⟨?_, ?_⟩⟩
  · rintro sends rfl
    exact dark.sends running keeps takesOff run enough sends written
  · intro late some
    by_contra silent
    obtain ⟨empty, none⟩ := not_or.mp silent
    rw [not_not] at empty
    obtain ⟨first, ticks⟩ := List.exists_mem_of_length_pos (Nat.zero_lt_of_lt enough)
    have shut : s.writeToLedsEnable = false := by
      cases ticks' : Op.ticks ops with
      | nil => exact absurd ticks (by simp [ticks'])
      | cons now rest =>
        have lateNow := late now (by simp [ticks'])
        have off : ¬ s.switchOff.enabledAt now = true :=
          fun enabled => none ⟨now, by simp [ticks'], enabled⟩
        rw [enabledAt, if_pos lateNow] at off
        exact Bool.not_eq_true _ |>.mp off
    have still := dark.paired.sends_nothing rfl shut
      (by rw [LinearColorSmoothing.switchOff, empty]; rfl) keeps late run
    have same : sent ++ s.written = [] ++ s.written := written.symm.trans still
    exact some (List.append_cancel_right same)

/-- With continuous output the first tick after `switchOff` shows black. -/
theorem switchOff_darkens_continuous : ∃ s,
    Reaches (step .exact) (new 25 200 0 true)
      [.write [⟨200, 0, 9⟩] 1000 1000, .updateLeds 1040] s ∧
    Along (step .exact) (Dims .exact) s.switchOff [.updateLeds 1080] ∧
    ∃ t sent, Reaches (step .exact) s.switchOff [.updateLeds 1080] t ∧
      t.written = sent ++ s.written ∧ (∀ frame ∈ sent, frame = [.black]) ∧ sent ≠ [] := by
  have returned : evaluates (step .exact) (.ok (new 25 200 0 true))
      [.write [⟨200, 0, 9⟩] 1000 1000, .updateLeds 1040]
      (fun s => decide (s.timer.isSome = true ∧ s.outputDelay = 0 ∧ s.targetValues.length = 1 ∧
        s.switchOff.deltaTime 1080 < 0 ∧ s.switchOff.enabledAt 1080 = true)) = true := by
    decide +kernel
  obtain ⟨_, s, same, reached, checked⟩ := exists_of_evaluates returned
  obtain rfl := Except.ok.inj same
  obtain ⟨running, delay, count, late, enabled⟩ := of_decide_eq_true checked
  obtain ⟨dims, t, sent, run, written, black, sends⟩ := switchOff_darkens .exact reached
    (show ∀ op ∈ [Op.updateLeds 1080], op.isWrite = false by decide)
    ⟨fun _ => Or.inl late, fun _ _ => trivial⟩
  rw [count] at black
  exact ⟨s, reached, dims, t, sent, run, written, black, (sends running (by decide)
    (by rw [delay]; decide)).1 (Or.inr ⟨1080, rfl, enabled⟩)⟩

/-- Without continuous output and with the target reached the tick after
`switchOff` sends nothing; and at a clock of 400 * 2 ^ 32 + 2 ^ 31 + 1000 it
faults, for the factor is above one. -/
theorem not_darkens_after_switchOff :
    (∃ s t, Reaches (step .exact) (new 25 200 0 false)
        [.write [⟨200, 0, 9⟩] 1000 1000, .updateLeds 1240] s ∧ s.outputDelay + 1 = 1 ∧
      Reaches (step .exact) s.switchOff [.updateLeds 1280] t ∧
      t.written = s.written ∧ s.written = [[⟨200, 0, 9⟩]]) ∧
    ∃ s, Reaches (step .exact) (new 25 200 0 true)
        [.write [⟨200, 0, 9⟩] 1720134403008 1720134403008] s ∧
      ¬ s.switchOff.Dims .exact (.updateLeds 1720134403048) := by
  constructor
  · have silent : evaluates (step .exact) (.ok (new 25 200 0 false))
        [.write [⟨200, 0, 9⟩] 1000 1000, .updateLeds 1240]
        (fun s => decide (s.outputDelay + 1 = 1) && evaluates (step .exact) (.ok s.switchOff)
          [.updateLeds 1280] (fun t => decide (t.written = s.written ∧
            s.written = [[⟨200, 0, 9⟩]]))) = true := by decide +kernel
    obtain ⟨_, s, same, reached, checked⟩ := exists_of_evaluates silent
    obtain rfl := Except.ok.inj same
    obtain ⟨delay, checked⟩ := Bool.and_eq_true_iff.mp checked
    obtain ⟨_, t, same, run, still⟩ := exists_of_evaluates checked
    obtain rfl := Except.ok.inj same
    exact ⟨s, t, reached, of_decide_eq_true delay, run, of_decide_eq_true still⟩
  · have faults : evaluates (step .exact) (.ok (new 25 200 0 true))
        [.write [⟨200, 0, 9⟩] 1720134403008 1720134403008]
        (fun s => !returnsWith (s.switchOff.step .exact (.updateLeds 1720134403048))
          fun _ => true) = true := by decide +kernel
    obtain ⟨_, s, same, reached, stuck⟩ := exists_of_evaluates faults
    obtain rfl := Except.ok.inj same
    refine ⟨s, reached, fun dims => ?_⟩
    obtain ⟨t, ok, -⟩ := dims
    rw [ok] at stuck
    exact absurd stuck (by simp [returnsWith])

end LinearColorSmoothing

end HyperionNg
