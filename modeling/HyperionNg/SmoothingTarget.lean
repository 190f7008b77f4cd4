import HyperionNg.LinearColorSmoothing

/-! What the smoothing hands to the device after its last write. The target
enters the output line at the first tick from its time on, but only if writing
was enabled when it was set or a tick fell in between: without continuous
output a write whose settling time passes between two ticks is lost. -/

namespace HyperionNg

open Library Library.Execution

private theorem memcpy_of_length_eq {α : Type} {dest source : List α}
    (h : source.length = dest.length) : memcpy dest source = .ok source := by
  simp [memcpy, h]

theorem fraction_mem (r : Rounding) {deltaTime span : Int} (hd : 0 ≤ deltaTime)
    (hle : deltaTime ≤ span) (hs : 0 < span) :
    ∃ k ∈ Set.Icc (0 : ℚ) 1, fraction r deltaTime span = some k ∧ (deltaTime = 0 → k = 1) := by
  refine ⟨_, r.round_one_sub_mem (r.round_div_mem (Int.cast_nonneg hd) (Int.cast_le.mpr hle)),
    if_neg hs.ne', ?_⟩
  rintro rfl
  simp

theorem approach_between (r : Rounding) {k : ℚ} (hk : k ∈ Set.Icc (0 : ℚ) 1) (prev target : UInt8) :
    ∃ v, approach r (some k) prev target = .ok v ∧
      min prev.toNat target.toNat ≤ v.toNat ∧ v.toNat ≤ max prev.toNat target.toNat ∧
      (k = 1 → v = target) := by
  have hp : prev.toNat < 256 := prev.toNat_lt
  have ht : target.toNat < 256 := target.toNat_lt
  obtain ⟨dif, hdif⟩ : ∃ dif : Int, dif = (target.toNat : Int) - prev.toNat := ⟨_, rfl⟩
  have hsmall : dif.natAbs ≤ 2 ^ 24 := by omega
  obtain ⟨hlow, hhigh⟩ := r.ceil_round_mul_mem hk hsmall
  obtain ⟨amount, hamount⟩ : ∃ amount, amount = ⌈r.round (k * dif.natAbs)⌉ := ⟨_, rfl⟩
  have whole : k = 1 → amount = dif.natAbs := by
    rintro rfl
    rw [hamount, one_mul, r.round_natCast _ hsmall, Int.ceil_natCast]
  obtain ⟨moved, hmoved⟩ : ∃ moved : Int,
      moved = prev.toNat + (if dif < 0 then -1 else 1) * amount := ⟨_, rfl⟩
  rw [← hamount] at hlow hhigh
  have hrange : min (prev.toNat : Int) target.toNat ≤ moved ∧
      moved ≤ max (prev.toNat : Int) target.toNat := by
    split_ifs at hmoved <;> omega
  have hbyte : 0 ≤ moved ∧ moved < 256 := by omega
  have hv : (UInt8.ofNat moved.toNat).toNat = moved.toNat := by
    rw [UInt8.toNat_ofNat']
    omega
  refine ⟨UInt8.ofNat moved.toNat, ?_, ?_, ?_, fun h => ?_⟩
  · simp only [approach, ← hdif, ← hamount, ← hmoved, narrowUInt8, if_pos hbyte]
  · rw [hv]
    omega
  · rw [hv]
    omega
  · have hm := whole h
    refine UInt8.toNat_inj.mp ?_
    rw [hv]
    split_ifs at hmoved <;> omega

def Between (prev value target : UInt8) : Prop :=
  min prev.toNat target.toNat ≤ value.toNat ∧ value.toNat ≤ max prev.toNat target.toNat

def BetweenColors (prevs values targets : List ColorRgb) : Prop :=
  ∀ (i : Nat) (prev value target : ColorRgb), prevs[i]? = some prev → values[i]? = some value →
    targets[i]? = some target → ∀ channel : Channel,
      Between (channel.ofColor prev) (channel.ofColor value) (channel.ofColor target)

theorem approachColor_returns (r : Rounding) {k : ℚ} (hk : k ∈ Set.Icc (0 : ℚ) 1)
    (prev target : ColorRgb) :
    ∃ c, approachColor r (some k) prev target = .ok c ∧
      (∀ channel : Channel,
        Between (channel.ofColor prev) (channel.ofColor c) (channel.ofColor target)) ∧
      (k = 1 → c = target) := by
  obtain ⟨red, hred, lowR, highR, hr⟩ := approach_between r hk prev.red target.red
  obtain ⟨green, hgreen, lowG, highG, hg⟩ := approach_between r hk prev.green target.green
  obtain ⟨blue, hblue, lowB, highB, hb⟩ := approach_between r hk prev.blue target.blue
  refine ⟨⟨red, green, blue⟩, ?_, fun channel => ?_, fun h => ?_⟩
  · simp only [approachColor, hred, hgreen, hblue]
    rfl
  · cases channel with
    | red => exact ⟨lowR, highR⟩
    | green => exact ⟨lowG, highG⟩
    | blue => exact ⟨lowB, highB⟩
  · rw [hr h, hg h, hb h]

theorem approachValues_returns (r : Rounding) {k : ℚ} (hk : k ∈ Set.Icc (0 : ℚ) 1)
    {prevs targets : List ColorRgb} (hlen : prevs.length = targets.length) :
    ∃ vs, approachValues r (some k) prevs targets = .ok vs ∧ vs.length = prevs.length ∧
      BetweenColors prevs vs targets ∧ (k = 1 → vs = targets) := by
  induction prevs generalizing targets with
  | nil =>
    refine ⟨[], rfl, rfl, nofun, fun _ => ?_⟩
    rw [List.length_nil] at hlen
    exact (List.eq_nil_of_length_eq_zero hlen.symm).symm
  | cons prev prevs ih =>
    cases targets with
    | nil => simp at hlen
    | cons target targets =>
      obtain ⟨c, hc, between, hwhole⟩ := approachColor_returns r hk prev target
      obtain ⟨vs, hvs, hl, betweenRest, hall⟩ := ih (Nat.succ.inj hlen)
      refine ⟨c :: vs, ?_, congrArg Nat.succ hl, ?_, fun h => by rw [hwhole h, hall h]⟩
      · simp only [approachValues, hc, hvs]
        rfl
      · intro i p v t hp hv ht
        cases i with
        | zero =>
          obtain ⟨rfl, rfl, rfl⟩ := And.intro (Option.some.inj hp)
            (And.intro (Option.some.inj hv) (Option.some.inj ht))
          exact between
        | succ i => exact betweenRest i p v t hp hv ht

namespace LinearColorSmoothing

def line (s : LinearColorSmoothing) : DelayLine (List ColorRgb) := ⟨s.outputQueue, s.written⟩

/-- The settling time, the output delay and the continuous output. -/
def config (s : LinearColorSmoothing) : Int × Nat × Bool :=
  (s.settlingTime, s.outputDelay, s.continuousOutput)

theorem queueColors_eq (s : LinearColorSmoothing) (colors : List ColorRgb)
    (bounded : s.outputQueue.length ≤ s.outputDelay) :
    s.queueColors colors = { s with
      outputQueue := (s.line.shift s.outputDelay s.writeToLedsEnable colors).queue
      written := (s.line.shift s.outputDelay s.writeToLedsEnable colors).outputs } := by
  obtain ⟨_, _, delay, _, _, _, _, _, _, queue, gate, _, written⟩ := s
  simp only at bounded
  unfold queueColors
  by_cases hd : delay = 0
  · obtain rfl : queue = [] := List.eq_nil_of_length_eq_zero (by omega)
    cases gate <;> simp [hd, line, DelayLine.shift, DelayLine.push, DelayLine.pop, setLedValues]
  · cases gate with
    | false =>
      cases queue <;> simp [hd, line, DelayLine.shift, DelayLine.pop, setLedValues]
    | true =>
      cases queue with
      | nil =>
        have hlt : ¬ delay < 1 := by omega
        simp [hd, hlt, Nat.pos_of_ne_zero hd, line, DelayLine.shift, DelayLine.push]
      | cons front rest =>
        by_cases hfull : rest.length + 1 < delay
        · have hlt : ¬ delay < rest.length + 1 + 1 := by omega
          simp [hd, hlt, hfull, line, DelayLine.shift, DelayLine.push]
        · have hlt : delay < rest.length + 1 + 1 := by omega
          simp [hd, hlt, hfull, line, DelayLine.shift, DelayLine.push, DelayLine.pop, setLedValues]

theorem updateLeds_late (r : Rounding) {s : LinearColorSmoothing} {now : Int}
    (late : s.deltaTime now < 0) (lengths : s.targetValues.length = s.previousValues.length)
    (bounded : s.outputQueue.length ≤ s.outputDelay) :
    s.updateLeds r now = .ok { s with
      previousValues := s.targetValues
      previousTime := now
      outputQueue := (s.line.shift s.outputDelay s.writeToLedsEnable s.targetValues).queue
      written := (s.line.shift s.outputDelay s.writeToLedsEnable s.targetValues).outputs
      writeToLedsEnable := s.continuousOutput } := by
  have eq := queueColors_eq { s with previousValues := s.targetValues, previousTime := now }
    s.targetValues bounded
  simp only [updateLeds, if_pos late, memcpy_of_length_eq lengths, bind, Except.bind, pure,
    Except.pure, eq]
  rfl

theorem updateLeds_early (r : Rounding) {s : LinearColorSmoothing} {now : Int}
    (delta : s.deltaTime now = s.targetTime - now) (early : now ≤ s.targetTime)
    (past : s.previousTime ≤ now) (span : s.previousTime < s.targetTime)
    (lengths : s.previousValues.length = s.targetValues.length)
    (bounded : s.outputQueue.length ≤ s.outputDelay) :
    ∃ colors, colors.length = s.previousValues.length ∧
      BetweenColors s.previousValues colors s.targetValues ∧
      (now = s.targetTime → colors = s.targetValues) ∧
      s.updateLeds r now = .ok { s with
        previousValues := colors
        previousTime := now
        outputQueue := (s.line.shift s.outputDelay true colors).queue
        written := (s.line.shift s.outputDelay true colors).outputs
        writeToLedsEnable := true } := by
  have hdelta : 0 ≤ s.deltaTime now := by omega
  obtain ⟨k, hk, hfraction, hwhole⟩ := fraction_mem r hdelta
    (by omega : s.deltaTime now ≤ s.targetTime - s.previousTime) (by omega)
  obtain ⟨colors, hcolors, hlen, between, hall⟩ := approachValues_returns r hk lengths
  refine ⟨colors, hlen, between, fun h => hall (hwhole (by omega)), ?_⟩
  have eq := queueColors_eq { s with
    writeToLedsEnable := true, previousValues := colors, previousTime := now } colors bounded
  have moved : approachValues r (fraction r (s.deltaTime now) (s.targetTime - s.previousTime))
      s.previousValues s.targetValues = .ok colors := by
    rw [hfraction, hcolors]
  have notLate : ¬ s.deltaTime now < 0 := not_lt.mpr hdelta
  simp only [updateLeds, if_neg notLate]
  exact bind_eq_ok.mpr ⟨colors, moved, congrArg Except.ok eq⟩

/-- The calls of `Hyperion::update` and of the timer. -/
def Op.isFeed : Op → Bool
  | .write .. => true
  | .updateLeds _ => true
  | _ => false

/-- Every frame has the length of the first; a tick after the target time is
seen as one by the narrowed difference; no tick repeats at the target time. -/
def Conforms (length : Nat) (s : LinearColorSmoothing) : Op → Prop
  | .write ledValues _ _ => ledValues.length = length
  | .updateLeds now => s.timer.isSome = true →
      (s.targetTime < now → s.deltaTime now < 0) ∧ (now = s.targetTime → s.previousTime ≠ now)
  | _ => True

instance (length : Nat) (s : LinearColorSmoothing) : (op : Op) → Decidable (s.Conforms length op)
  | .write .. => inferInstanceAs (Decidable (_ = _))
  | .updateLeds _ => inferInstanceAs (Decidable (_ → (_ → _) ∧ (_ → _)))
  | .switchOff => isTrue trivial
  | .setEnable _ => isTrue trivial

structure Fed (length : Nat) (clock : Int) (s : LinearColorSmoothing) : Prop where
  idle : s.timer.isSome = false → s.previousValues = []
  previous : s.timer.isSome = true → s.previousValues.length = length
  target : s.timer.isSome = true → s.targetValues.length = length
  past : s.timer.isSome = true → s.previousTime ≤ clock
  due : s.timer.isSome = true → s.targetTime ≤ clock + s.settlingTime
  settling : s.settlingTime < 2 ^ 31
  bounded : s.outputQueue.length ≤ s.outputDelay
  continuous : s.continuousOutput = true → s.writeToLedsEnable = true

theorem new_fed (frequency : ℚ) {settling : Int} (hs : settling < 2 ^ 31) (delay : Nat)
    (continuous : Bool) (length : Nat) (clock : Int) :
    (new frequency settling delay continuous).Fed length clock where
  idle _ := rfl
  previous h := nomatch h
  target h := nomatch h
  past h := nomatch h
  due h := nomatch h
  settling := hs
  bounded := Nat.zero_le _
  continuous _ := rfl

theorem Fed.later {length : Nat} {clock bound : Int} {s : LinearColorSmoothing}
    (fed : s.Fed length clock) (h : clock ≤ bound) : s.Fed length bound :=
  { fed with
    past := fun running => (fed.past running).trans h
    due := fun running => (fed.due running).trans (Int.add_le_add_right h _) }

theorem Fed.write {length : Nat} {clock now later : Int} {s : LinearColorSmoothing}
    (fed : s.Fed length clock) {values : List ColorRgb} (hlen : values.length = length)
    (hnow : clock ≤ now) (hlater : now ≤ later) :
    ∃ t, s.write values now later = .ok t ∧ t.Fed length later ∧ t.timer.isSome = true ∧
      t.targetValues = values ∧ t.targetTime = now + s.settlingTime ∧
      t.writeToLedsEnable = s.writeToLedsEnable ∧ t.line = s.line ∧ t.config = s.config := by
  unfold LinearColorSmoothing.write
  by_cases hempty : s.previousValues = []
  · rw [if_pos hempty]
    refine ⟨_, rfl, ?_, rfl, rfl, rfl, rfl, rfl, rfl⟩
    exact { fed with
      idle := fun h => nomatch h
      previous := fun _ => hlen
      target := fun _ => hlen
      past := fun _ => le_refl _
      due := fun _ => Int.add_le_add_right hlater _ }
  · have running : s.timer.isSome = true := by
      by_contra h
      exact hempty (fed.idle (by simpa using h))
    rw [if_neg hempty, memcpy_of_length_eq (hlen.trans (fed.target running).symm)]
    refine ⟨_, rfl, ?_, running, rfl, rfl, rfl, rfl, rfl⟩
    exact { fed with
      target := fun _ => hlen
      past := fun h => (fed.past h).trans (hnow.trans hlater)
      due := fun _ => Int.add_le_add_right hlater _ }

theorem deltaTime_eq {length : Nat} {clock now : Int} {s : LinearColorSmoothing}
    (fed : s.Fed length clock) (running : s.timer.isSome = true) (hnow : clock ≤ now)
    (early : now ≤ s.targetTime) : s.deltaTime now = s.targetTime - now := by
  have hdue := fed.due running
  have hsettling := fed.settling
  rw [deltaTime, Int.bmod_eq_of_le]
  · omega
  · omega

theorem Fed.late {length : Nat} {clock now : Int} {s : LinearColorSmoothing}
    (fed : s.Fed length clock) (running : s.timer.isSome = true) (hnow : clock ≤ now)
    (conforms : s.Conforms length (.updateLeds now)) (late : s.targetTime < now) (r : Rounding) :
    ∃ t, s.updateLeds r now = .ok t ∧ t.Fed length now ∧ t.timer.isSome = true ∧
      t.targetValues = s.targetValues ∧ t.targetTime = s.targetTime ∧ t.previousTime = now ∧
      t.config = s.config ∧ t.writeToLedsEnable = s.continuousOutput ∧
      t.line = s.line.shift s.outputDelay s.writeToLedsEnable s.targetValues := by
  refine ⟨_, updateLeds_late r ((conforms running).1 late)
    ((fed.target running).trans (fed.previous running).symm) fed.bounded, ?_,
    running, rfl, rfl, rfl, rfl, rfl, rfl⟩
  exact {
    idle := fun h => absurd running (by simp [h])
    previous := fed.target
    target := fed.target
    past := fun _ => le_refl _
    due := fun h => (fed.due h).trans (Int.add_le_add_right hnow _)
    settling := fed.settling
    bounded := DelayLine.shift_length_le _ _ fed.bounded
    continuous := id }

theorem Fed.early {length : Nat} {clock now : Int} {s : LinearColorSmoothing}
    (fed : s.Fed length clock) (running : s.timer.isSome = true) (hnow : clock ≤ now)
    (conforms : s.Conforms length (.updateLeds now)) (early : now ≤ s.targetTime) (r : Rounding) :
    ∃ t colors, s.updateLeds r now = .ok t ∧ t.Fed length now ∧ t.timer.isSome = true ∧
      t.targetValues = s.targetValues ∧ t.targetTime = s.targetTime ∧ t.previousTime = now ∧
      t.config = s.config ∧ t.writeToLedsEnable = true ∧
      (now = s.targetTime → colors = s.targetValues) ∧
      t.line = s.line.shift s.outputDelay true colors := by
  have past : s.previousTime ≤ now := (fed.past running).trans hnow
  have span : s.previousTime < s.targetTime := by
    rcases lt_or_eq_of_le early with h | h
    · omega
    · have := (conforms running).2 h
      omega
  obtain ⟨colors, hlen, -, whole, ok⟩ :=
    updateLeds_early r (deltaTime_eq fed running hnow early) early
    past span ((fed.previous running).trans (fed.target running).symm) fed.bounded
  refine ⟨_, colors, ok, ?_, running, rfl, rfl, rfl, rfl, rfl, whole, rfl⟩
  exact {
    idle := fun h => absurd running (by simp [h])
    previous := fun h => hlen.trans (fed.previous h)
    target := fed.target
    past := fun _ => le_refl _
    due := fun h => (fed.due h).trans (Int.add_le_add_right hnow _)
    settling := fed.settling
    bounded := DelayLine.shift_length_le _ _ fed.bounded
    continuous := fun _ => rfl }

theorem Fed.run {length : Nat} {r : Rounding} {ops : List Op} (feeds : ∀ op ∈ ops, op.isFeed = true)
    {s : LinearColorSmoothing} {clock : Int} (fed : s.Fed length clock)
    (sorted : (clock :: ops.flatMap Op.times).Pairwise (· ≤ ·))
    (conforms : Along (step r) (Conforms length) s ops) :
    ∃ t, Reaches (step r) s ops t ∧ t.config = s.config ∧
      ∀ bound, (∀ x ∈ clock :: ops.flatMap Op.times, x ≤ bound) → t.Fed length bound := by
  induction ops generalizing s clock with
  | nil => exact ⟨s, reaches_nil.mpr rfl, rfl, fun bound h => fed.later (h clock (by simp))⟩
  | cons op rest ih =>
    have feedsRest : ∀ op ∈ rest, op.isFeed = true := fun op h => feeds op (by simp [h])
    obtain ⟨hhead, htail⟩ := List.pairwise_cons.mp sorted
    cases op with
    | write values now later =>
      have hnow : clock ≤ now := hhead now (by simp [Op.times])
      obtain ⟨hnext, hrest⟩ := List.pairwise_cons.mp htail
      obtain ⟨u, hu, fedU, _, _, _, _, _, hconfig⟩ := fed.write conforms.1 hnow
        (hnext later (by simp))
      obtain ⟨t, ht, hconfig', hfed⟩ := ih feedsRest fedU hrest (conforms.2 u hu)
      refine ⟨t, reaches_cons.mpr ⟨u, hu, ht⟩, hconfig'.trans hconfig, fun bound h => hfed bound ?_⟩
      exact fun x hx => h x (List.mem_cons_of_mem _ (List.mem_cons_of_mem _ hx))
    | updateLeds now =>
      have hnow : clock ≤ now := hhead now (by simp [Op.times])
      have ticked : ∃ u, s.step r (.updateLeds now) = .ok u ∧ u.Fed length now ∧
          u.config = s.config := by
        by_cases running : s.timer.isSome = true
        · simp only [LinearColorSmoothing.step, if_pos running]
          rcases lt_or_ge s.targetTime now with late | early
          · obtain ⟨u, hu, fedU, _, _, _, _, hconfig, _⟩ :=
              fed.late running hnow conforms.1 late r
            exact ⟨u, hu, fedU, hconfig⟩
          · obtain ⟨u, _, hu, fedU, _, _, _, _, hconfig, _⟩ :=
              fed.early running hnow conforms.1 early r
            exact ⟨u, hu, fedU, hconfig⟩
        · exact ⟨s, if_neg running, fed.later hnow, rfl⟩
      obtain ⟨u, hu, fedU, hconfig⟩ := ticked
      obtain ⟨t, ht, hconfig', hfed⟩ := ih feedsRest fedU htail (conforms.2 u hu)
      refine ⟨t, reaches_cons.mpr ⟨u, hu, ht⟩, hconfig'.trans hconfig, fun bound h => hfed bound ?_⟩
      exact fun x hx => h x (List.mem_cons_of_mem _ hx)
    | switchOff => exact absurd (feeds .switchOff (by simp)) Bool.false_ne_true
    | setEnable enable => exact absurd (feeds (.setEnable enable) (by simp)) Bool.false_ne_true

theorem Fed.drain {length : Nat} {r : Rounding} {ticks : List Int} {s : LinearColorSmoothing}
    {clock : Int} (fed : s.Fed length clock) (running : s.timer.isSome = true)
    (sorted : (clock :: ticks).Pairwise (· ≤ ·))
    (conforms : Along (step r) (Conforms length) s (ticks.map Op.updateLeds))
    (passed : s.targetTime ≤ s.previousTime)
    (due : s.line.Due s.outputDelay s.targetValues ticks.length s.writeToLedsEnable) :
    ∃ t, Reaches (step r) s (ticks.map Op.updateLeds) t ∧
      t.written.head? = some s.targetValues := by
  induction ticks generalizing s clock with
  | nil =>
    obtain ⟨_, _, hlast⟩ := due.done fed.bounded
    exact ⟨s, reaches_nil.mpr rfl, hlast⟩
  | cons now rest ih =>
    obtain ⟨hhead, htail⟩ := List.pairwise_cons.mp sorted
    have hnow : clock ≤ now := hhead now (by simp)
    have hpast := fed.past running
    have late : s.targetTime < now := by
      refine lt_of_le_of_ne (by omega) fun h => (conforms.1 running).2 h.symm (by omega)
    obtain ⟨u, hu, fedU, runningU, htarget, htime, hprev, hconfig, hgate, hline⟩ :=
      fed.late running hnow conforms.1 late r
    have hstep : s.step r (.updateLeds now) = .ok u := (if_pos running).trans hu
    have hdelay : u.outputDelay = s.outputDelay := congrArg (fun c => c.2.1) hconfig
    have dueU : u.line.Due u.outputDelay u.targetValues rest.length u.writeToLedsEnable := by
      rw [hline, hdelay, htarget, hgate]
      exact due.shift fed.bounded fed.continuous
    obtain ⟨t, ht, hlast⟩ := ih fedU runningU htail (conforms.2 u hstep) (by omega) dueU
    exact ⟨t, reaches_cons.mpr ⟨u, hstep, ht⟩, hlast.trans (congrArg some htarget)⟩

theorem Fed.queue {length : Nat} {r : Rounding} {now : Int} {rest : List Int}
    {s : LinearColorSmoothing} {clock : Int} (fed : s.Fed length clock)
    (running : s.timer.isSome = true) (sorted : (clock :: now :: rest).Pairwise (· ≤ ·))
    (conforms : Along (step r) (Conforms length) s ((now :: rest).map Op.updateLeds))
    (reached : s.targetTime ≤ now) (enabled : s.writeToLedsEnable = true ∨ now ≤ s.targetTime)
    (delayed : s.outputDelay ≤ rest.length) :
    ∃ t, Reaches (step r) s ((now :: rest).map Op.updateLeds) t ∧
      t.written.head? = some s.targetValues := by
  obtain ⟨hhead, htail⟩ := List.pairwise_cons.mp sorted
  have hnow : clock ≤ now := hhead now (by simp)
  have ticked : ∃ u, s.step r (.updateLeds now) = .ok u ∧ u.Fed length now ∧
      u.timer.isSome = true ∧ u.targetValues = s.targetValues ∧ u.targetTime = s.targetTime ∧
      u.previousTime = now ∧ u.config = s.config ∧
      u.line = s.line.shift s.outputDelay true s.targetValues := by
    rcases lt_or_eq_of_le reached with late | atTarget
    · obtain ⟨u, hu, fedU, runningU, htarget, htime, hprev, hconfig, _, hline⟩ :=
        fed.late running hnow conforms.1 late r
      have hgate : s.writeToLedsEnable = true := enabled.resolve_right (not_le.mpr late)
      exact ⟨u, (if_pos running).trans hu, fedU, runningU, htarget, htime, hprev, hconfig,
        hgate ▸ hline⟩
    · obtain ⟨u, colors, hu, fedU, runningU, htarget, htime, hprev, hconfig, _, hcolors, hline⟩ :=
        fed.early running hnow conforms.1 (le_of_eq atTarget.symm) r
      exact ⟨u, (if_pos running).trans hu, fedU, runningU, htarget, htime, hprev, hconfig,
        hcolors atTarget.symm ▸ hline⟩
  obtain ⟨u, hstep, fedU, runningU, htarget, htime, hprev, hconfig, hline⟩ := ticked
  have hdelay : u.outputDelay = s.outputDelay := congrArg (fun c => c.2.1) hconfig
  have dueU : u.line.Due u.outputDelay u.targetValues rest.length u.writeToLedsEnable := by
    rw [hline, hdelay, htarget]
    exact (DelayLine.due_of_shift _ fed.bounded _).mono delayed
  obtain ⟨t, ht, hlast⟩ := fedU.drain runningU htail (conforms.2 u hstep) (by omega) dueU
  exact ⟨t, reaches_cons.mpr ⟨u, hstep, ht⟩, hlast.trans (congrArg some htarget)⟩

theorem head_le_of_exists {bound now : Int} {rest : List Int}
    (sorted : (now :: rest).Pairwise (· ≤ ·)) (h : ∃ t ∈ now :: rest, t ≤ bound) : now ≤ bound := by
  obtain ⟨t, hmem, hle⟩ := h
  rcases List.mem_cons.mp hmem with rfl | hmem
  · exact hle
  · exact ((List.pairwise_cons.mp sorted).1 t hmem).trans hle

theorem Fed.settle {length : Nat} {r : Rounding} {before further : List Int} {tick : Int}
    {s : LinearColorSmoothing} {clock : Int} (fed : s.Fed length clock)
    (running : s.timer.isSome = true)
    (sorted : (clock :: (before ++ tick :: further)).Pairwise (· ≤ ·))
    (conforms : Along (step r) (Conforms length) s ((before ++ tick :: further).map Op.updateLeds))
    (enabled : s.writeToLedsEnable = true ∨ ∃ now ∈ before ++ tick :: further, now ≤ s.targetTime)
    (reached : s.targetTime ≤ tick) (delayed : s.outputDelay ≤ further.length) :
    ∃ t, Reaches (step r) s ((before ++ tick :: further).map Op.updateLeds) t ∧
      t.written.head? = some s.targetValues := by
  induction before generalizing s clock with
  | nil =>
    exact fed.queue running sorted conforms reached
      (enabled.imp id (head_le_of_exists (List.pairwise_cons.mp sorted).2)) delayed
  | cons now before ih =>
    obtain ⟨hhead, htail⟩ := List.pairwise_cons.mp sorted
    rcases lt_or_ge now s.targetTime with early | hreached
    · obtain ⟨u, _, hu, fedU, runningU, htarget, htime, _, hconfig, hgate, _⟩ :=
        fed.early running (hhead now (by simp)) conforms.1 early.le r
      have hstep : s.step r (.updateLeds now) = .ok u := (if_pos running).trans hu
      have hdelay : u.outputDelay = s.outputDelay := congrArg (fun c => c.2.1) hconfig
      obtain ⟨t, ht, hlast⟩ := ih fedU runningU htail (conforms.2 u hstep) (Or.inl hgate)
        (htime ▸ reached) (hdelay ▸ delayed)
      exact ⟨t, reaches_cons.mpr ⟨u, hstep, ht⟩, hlast.trans (congrArg some htarget)⟩
    · have hdelayed : s.outputDelay ≤ (before ++ tick :: further).length := by
        simp only [List.length_append, List.length_cons]
        omega
      exact fed.queue running sorted conforms hreached
        (enabled.imp id (head_le_of_exists htail)) hdelayed

theorem Fed.lost {length : Nat} {r : Rounding} {ticks : List Int} {s t : LinearColorSmoothing}
    {clock : Int} (fed : s.Fed length clock) (running : s.timer.isSome = true)
    (sorted : (clock :: ticks).Pairwise (· ≤ ·))
    (conforms : Along (step r) (Conforms length) s (ticks.map Op.updateLeds))
    (disabled : s.writeToLedsEnable = false) (late : ∀ now ∈ ticks, s.targetTime < now)
    {values : List ColorRgb} (absent : s.line.Absent values)
    (run : Reaches (step r) s (ticks.map Op.updateLeds) t) : t.written.head? ≠ some values := by
  induction ticks generalizing s clock with
  | nil => exact reaches_nil.mp run ▸ absent.2
  | cons now rest ih =>
    obtain ⟨hhead, htail⟩ := List.pairwise_cons.mp sorted
    obtain ⟨u, hu, fedU, runningU, _, htime, _, _, hgate, hline⟩ :=
      fed.late running (hhead now (by simp)) conforms.1 (late now (by simp)) r
    have hstep : s.step r (.updateLeds now) = .ok u := (if_pos running).trans hu
    have once : s.continuousOutput = false := by
      by_contra continuous
      rw [fed.continuous (by simpa using continuous)] at disabled
      exact absurd disabled (by decide)
    have absentU : u.line.Absent values := by
      rw [hline, disabled]
      exact absent.shift _ _
    obtain ⟨v, hv, hrun⟩ := reaches_cons.mp run
    obtain rfl : u = v := Except.ok.inj (hstep.symm.trans hv)
    exact ih fedU runningU htail (conforms.2 u hstep) (hgate.trans once)
      (fun t ht => htime ▸ late t (by simp [ht])) absentU hrun

def lastWrite (before : List Op) (target : List ColorRgb) (now later : Int) (ticks : List Int) :
    List Op :=
  before ++ .write target now later :: ticks.map .updateLeds

/-- Writing is enabled, or a tick up to the given time will enable it. -/
def Queues (s : LinearColorSmoothing) (due : Int) (ticks : List Int) : Prop :=
  s.writeToLedsEnable = true ∨ ∃ tick ∈ ticks, tick ≤ due

theorem ticks_times (ticks : List Int) : (ticks.map Op.updateLeds).flatMap Op.times = ticks := by
  induction ticks with
  | nil => rfl
  | cons tick ticks ih => simpa [Op.times] using ih

private theorem lastWrite_times (before : List Op) (target : List ColorRgb) (now later : Int)
    (ticks : List Int) : (lastWrite before target now later ticks).flatMap Op.times =
      before.flatMap Op.times ++ now :: later :: ticks := by
  rw [lastWrite, List.flatMap_append, List.flatMap_cons, ticks_times]
  rfl

theorem lastWrite_returns (r : Rounding) (frequency : ℚ) {settling : Int} (hs : settling < 2 ^ 31)
    {delay : Nat} {continuous : Bool} {length : Nat} {before : List Op} {target : List ColorRgb}
    {now later : Int} {ticks : List Int} (feeds : ∀ op ∈ before, op.isFeed = true)
    (clock : ((lastWrite before target now later ticks).flatMap Op.times).Pairwise (· ≤ ·))
    (conforms : Along (step r) (Conforms length) (new frequency settling delay continuous)
      (lastWrite before target now later ticks)) :
    ∃ s u, Reaches (step r) (new frequency settling delay continuous) before s ∧
      s.step r (.write target now later) = .ok u ∧
      (later :: ticks).Pairwise (· ≤ ·) ∧
      Along (step r) (Conforms length) u (ticks.map Op.updateLeds) ∧
      u.Fed length later ∧ u.timer.isSome = true ∧ u.targetValues = target ∧
      u.targetTime = now + settling ∧ u.outputDelay = delay ∧
      u.writeToLedsEnable = s.writeToLedsEnable ∧ u.line = s.line ∧
      (continuous = true → s.writeToLedsEnable = true) := by
  rw [lastWrite_times] at clock
  obtain ⟨sortedBefore, sortedAfter, hbefore⟩ := List.pairwise_append.mp clock
  obtain ⟨hnow, hticks⟩ := List.pairwise_cons.mp sortedAfter
  obtain ⟨conformsBefore, conformsAfter⟩ := along_append.mp conforms
  obtain ⟨start, hstart⟩ := (now :: before.flatMap Op.times).toFinset.bddBelow
  have least : ∀ x ∈ now :: before.flatMap Op.times, start ≤ x := fun x hx =>
    hstart (List.mem_toFinset.mpr hx)
  obtain ⟨s, hrun, hconfig, fedAt⟩ := (new_fed frequency hs delay continuous length start).run feeds
    (List.pairwise_cons.mpr ⟨fun x hx => least x (List.mem_cons_of_mem _ hx), sortedBefore⟩)
    conformsBefore
  have fed : s.Fed length now := fedAt now fun x hx => by
    rcases List.mem_cons.mp hx with rfl | hx
    · exact least now List.mem_cons_self
    · exact hbefore x hx now List.mem_cons_self
  have after := conformsAfter s hrun
  obtain ⟨u, hu, fedU, running, htarget, htime, hgate, hline, hconfig'⟩ :=
    fed.write after.1 (le_refl now) (hnow later (by simp))
  obtain ⟨hsettling, hdelay, hcontinuous⟩ :
      s.settlingTime = settling ∧ s.outputDelay = delay ∧ s.continuousOutput = continuous := by
    simpa [config, new] using hconfig
  have hdelay' : u.outputDelay = delay := (congrArg (fun c => c.2.1) hconfig').trans hdelay
  have htime' : u.targetTime = now + settling := by rw [htime, hsettling]
  exact ⟨s, u, hrun, hu, hticks, after.2 u hu, fedU, running, htarget, htime', hdelay', hgate,
    hline, fun hc => fed.continuous (hcontinuous.trans hc)⟩

/-- After a conforming run of writes and ticks, a tick from the target time on
and as many more as the output delay, the device was handed the target last if
writing was enabled at the last write or a tick fell before the target time.
Otherwise a target not already handed on or queued was not. -/
theorem settles_on_target_iff (r : Rounding) (frequency : ℚ) {settling : Int}
    (hs : settling < 2 ^ 31) {delay : Nat} {continuous : Bool} {length : Nat} {before : List Op}
    {target : List ColorRgb} {now later : Int} {early further : List Int} {tick : Int}
    (feeds : ∀ op ∈ before, op.isFeed = true)
    (clock : ((lastWrite before target now later (early ++ tick :: further)).flatMap
      Op.times).Pairwise (· ≤ ·))
    (conforms : Along (step r) (Conforms length) (new frequency settling delay continuous)
      (lastWrite before target now later (early ++ tick :: further)))
    (reached : now + settling ≤ tick) (delayed : delay ≤ further.length) :
    ∃ s, Reaches (step r) (new frequency settling delay continuous) before s ∧
      (continuous = true → s.writeToLedsEnable = true) ∧
      ∃ t, Reaches (step r) (new frequency settling delay continuous)
          (lastWrite before target now later (early ++ tick :: further)) t ∧
        (s.Queues (now + settling) (early ++ tick :: further) →
          t.written.head? = some target) ∧
        (s.line.Absent target → t.written.head? = some target →
          s.Queues (now + settling) (early ++ tick :: further)) := by
  obtain ⟨s, u, hrun, hu, hticks, conformsU, fedU, running, rfl, htime, hdelay, hgate, hline,
    hcontinuous⟩ := lastWrite_returns r frequency hs feeds clock conforms
  have whole : ∀ {t}, Reaches (step r) u ((early ++ tick :: further).map Op.updateLeds) t →
      Reaches (step r) (new frequency settling delay continuous)
        (lastWrite before u.targetValues now later (early ++ tick :: further)) t := fun ht =>
    reaches_append.mpr ⟨s, hrun, reaches_cons.mpr ⟨u, hu, ht⟩⟩
  refine ⟨s, hrun, hcontinuous, ?_⟩
  by_cases queues : s.Queues (now + settling) (early ++ tick :: further)
  · have enabled : u.writeToLedsEnable = true ∨
        ∃ t ∈ early ++ tick :: further, t ≤ u.targetTime := by
      rw [hgate, htime]
      exact queues
    obtain ⟨t, ht, hlast⟩ := fedU.settle running hticks conformsU enabled (htime ▸ reached)
      (hdelay ▸ delayed)
    exact ⟨t, whole ht, fun _ => hlast, fun _ _ => queues⟩
  · obtain ⟨disabled, late⟩ := not_or.mp queues
    have tickFeeds : ∀ op ∈ (early ++ tick :: further).map Op.updateLeds, op.isFeed = true := by
      intro op hop
      obtain ⟨_, _, rfl⟩ := List.mem_map.mp hop
      rfl
    obtain ⟨t, ht, _, _⟩ := fedU.run tickFeeds ((ticks_times _).symm ▸ hticks) conformsU
    refine ⟨t, whole ht, fun h => absurd h queues, fun absent hlast => ?_⟩
    have shut : u.writeToLedsEnable = false := hgate.trans (by simpa using disabled)
    refine absurd hlast (fedU.lost running hticks conformsU shut (fun now hmem => ?_)
      (hline ▸ absent) ht)
    rw [htime]
    exact not_le.mp fun h => late ⟨now, hmem, h⟩

theorem settles_on_target_delayed : ∃ t, Reaches (step .exact) (new 25 200 1 false)
    (lastWrite [.write [⟨0, 0, 0⟩] 0 0, .updateLeds 300] [⟨8, 8, 8⟩] 300 300
      ([400] ++ 600 :: [700])) t ∧ t.written.head? = some [⟨8, 8, 8⟩] := by
  have checked : checksAlong (step .exact) (fun s op => decide (s.Conforms 1 op))
      (new 25 200 1 false) (lastWrite [.write [⟨0, 0, 0⟩] 0 0, .updateLeds 300] [⟨8, 8, 8⟩] 300 300
        ([400] ++ 600 :: [700])) = true := by decide +kernel
  obtain ⟨_, _, _, t, run, settles, _⟩ := settles_on_target_iff .exact 25 (by decide)
    (by simp [Op.isFeed]) (by decide)
    (along_of_checks checked fun _ _ _ h => of_decide_eq_true h) (by decide) (by decide)
  exact ⟨t, run, settles (Or.inr ⟨400, by decide, by decide⟩)⟩

/-- At 10 Hz and 25 ms without continuous output the second write falls
between two ticks: the device keeps the first frame. -/
theorem target_between_ticks_lost : ∃ s, Reaches (step .exact) (new 10 25 0 false)
    (lastWrite [.write [⟨0, 0, 0⟩] 0 0, .updateLeds 100] [⟨8, 8, 8⟩] 150 150 [200]) s ∧
    ((lastWrite [.write [⟨0, 0, 0⟩] 0 0, .updateLeds 100] [⟨8, 8, 8⟩] 150 150
      [200]).flatMap Op.times).Pairwise (· ≤ ·) ∧
    (150 : Int) + 25 ≤ 200 ∧ s.written.head? ≠ some [⟨8, 8, 8⟩] := by
  have lost : evaluates (step .exact) (.ok (new 10 25 0 false))
      (lastWrite [.write [⟨0, 0, 0⟩] 0 0, .updateLeds 100] [⟨8, 8, 8⟩] 150 150 [200])
      (fun s => decide (s.written.head? ≠ some [⟨8, 8, 8⟩])) = true := by decide +kernel
  obtain ⟨_, s, same, run, kept⟩ := exists_of_evaluates lost
  obtain rfl := Except.ok.inj same
  exact ⟨s, run, by decide, by decide, of_decide_eq_true kept⟩

end LinearColorSmoothing

end HyperionNg
