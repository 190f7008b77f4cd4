import HyperionNg.SmoothingTarget

/-! The ticks of the smoothing against its latest write. As long as the
difference to the target time keeps its sign when it is narrowed, every tick
moves the colours towards the target, and has reached it at the target time. -/

namespace HyperionNg

open Library Library.Execution

namespace LinearColorSmoothing

/-- A smoothing with the frame of its latest write and the time that is due. -/
structure Session where
  smoothing : LinearColorSmoothing
  latest : Option (List ColorRgb × Int) := none
deriving DecidableEq

namespace Session

def step (r : Rounding) (session : Session) : Op → Except Fault Session
  | .write ledValues now later => do
    let smoothing ← session.smoothing.step r (.write ledValues now later)
    pure ⟨smoothing, some (ledValues, now + session.smoothing.settlingTime)⟩
  | op => do
    let smoothing ← session.smoothing.step r op
    pure { session with smoothing }

/-- What a tick at `now` makes of the colours, on the way to a frame due at `due`. -/
structure Approaches (r : Rounding) (s t : LinearColorSmoothing) (now : Int)
    (frame : List ColorRgb) (due : Int) : Prop where
  divides : ¬ s.deltaTime now < 0 → s.targetTime - s.previousTime ≠ 0
  fraction : ¬ s.deltaTime now < 0 → ∃ k ∈ Set.Icc (0 : ℚ) 1,
    HyperionNg.fraction r (s.deltaTime now) (s.targetTime - s.previousTime) = some k
  length : t.previousValues.length = s.previousValues.length
  between : BetweenColors s.previousValues t.previousValues frame
  reached : due ≤ now → t.previousValues = frame

/-- Writes return, and so do ticks, which approach the frame of the latest write. -/
def Smooths (r : Rounding) (session : Session) : Op → Prop
  | .updateLeds now => ∃ t, session.smoothing.step r (.updateLeds now) = .ok t ∧
      ∀ frame due, session.latest = some (frame, due) →
        Approaches r session.smoothing t now frame due
  | op => ∃ t, session.smoothing.step r op = .ok t

/-- A tick after the due time is at most 2 ^ 31 ms late, up to multiples of 2 ^ 32. -/
def InTime (session : Session) : Op → Prop
  | .updateLeds now => ∀ frame due, session.latest = some (frame, due) → due < now →
      (now - due - 1) % 2 ^ 32 < 2 ^ 31
  | _ => True

instance (session : Session) : (op : Op) → Decidable (session.InTime op)
  | .write .. => isTrue trivial
  | .updateLeds now => decidable_of_iff (∀ write ∈ session.latest, write.2 < now →
      (now - write.2 - 1) % 2 ^ 32 < 2 ^ 31)
      ⟨fun all frame due latest => all (frame, due) latest, fun all write => all write.1 write.2⟩
  | .switchOff => isTrue trivial
  | .setEnable _ => isTrue trivial

end Session

theorem deltaTime_neg_iff (s : LinearColorSmoothing) (now : Int) :
    s.deltaTime now < 0 ↔ (now - s.targetTime - 1) % 2 ^ 32 < 2 ^ 31 := by
  rw [deltaTime, Int.bmod_def]
  omega

def Op.Follows (length : Nat) (clock : Int) : Op → Prop
  | .write ledValues now later => ledValues.length = length ∧ clock < now ∧ now ≤ later
  | .updateLeds now => clock < now
  | _ => False

instance (length : Nat) (clock : Int) : (op : Op) → Decidable (op.Follows length clock)
  | .write .. => inferInstanceAs (Decidable (_ ∧ _ ∧ _))
  | .updateLeds _ => inferInstanceAs (Decidable (_ < _))
  | .switchOff => isFalse id
  | .setEnable _ => isFalse id

def Op.ends (clock : Int) : Op → Int
  | .write _ _ later => later
  | .updateLeds now => now
  | _ => clock

/-- A schedule of writes and ticks at strictly increasing times. -/
def Increasing (length : Nat) : Int → List Op → Prop
  | _, [] => True
  | clock, op :: rest => op.Follows length clock ∧ Increasing length (op.ends clock) rest

instance (length : Nat) : (clock : Int) → (ops : List Op) → Decidable (Increasing length clock ops)
  | _, [] => isTrue trivial
  | clock, op :: rest =>
    have := instDecidableIncreasing length (op.ends clock) rest
    inferInstanceAs (Decidable (op.Follows length clock ∧ _))

namespace Session

structure Fed (length : Nat) (clock : Int) (session : Session) : Prop where
  fed : session.smoothing.Fed length clock
  running : session.latest.isSome = true → session.smoothing.timer.isSome = true
  idle : session.latest = none → session.smoothing.timer = none
  target : ∀ frame due, session.latest = some (frame, due) →
    session.smoothing.targetValues = frame ∧ session.smoothing.targetTime = due

theorem Fed.write {length : Nat} {clock now later : Int} {session : Session}
    (fed : session.Fed length clock) {values : List ColorRgb}
    (follows : (Op.write values now later).Follows length clock) (r : Rounding) :
    ∃ t, session.step r (.write values now later) = .ok t ∧ t.Fed length later ∧
      session.Smooths r (.write values now later) := by
  obtain ⟨same, after, ordered⟩ := follows
  obtain ⟨t, ok, fedT, running, target, time, -⟩ := fed.fed.write same after.le ordered
  refine ⟨_, bind_eq_ok.mpr ⟨t, ok, rfl⟩, ?_, ⟨t, ok⟩⟩
  exact {
    fed := fedT
    running := fun _ => running
    idle := nofun
    target := by
      rintro frame due latest
      obtain ⟨rfl, rfl⟩ := Prod.mk.inj (Option.some.inj latest)
      exact ⟨target, time⟩ }

theorem approaches_late (r : Rounding) {s : LinearColorSmoothing} {now : Int}
    (negative : s.deltaTime now < 0)
    (lengths : s.targetValues.length = s.previousValues.length)
    (bounded : s.outputQueue.length ≤ s.outputDelay) :
    ∃ t, s.updateLeds r now = .ok t ∧
      Approaches r s t now s.targetValues s.targetTime := by
  refine ⟨_, updateLeds_late r negative lengths bounded, ?_⟩
  exact {
    divides := absurd negative
    fraction := absurd negative
    length := lengths
    between := by
      intro i prev value target _ hvalue htarget channel
      obtain rfl : value = target := Option.some.inj (hvalue.symm.trans htarget)
      exact ⟨min_le_right _ _, le_max_right _ _⟩
    reached := fun _ => rfl }

theorem approaches_early (r : Rounding) {s : LinearColorSmoothing} {now : Int}
    (delta : s.deltaTime now = s.targetTime - now) (early : now ≤ s.targetTime)
    (past : s.previousTime < now)
    (lengths : s.previousValues.length = s.targetValues.length)
    (bounded : s.outputQueue.length ≤ s.outputDelay) :
    ∃ t, s.updateLeds r now = .ok t ∧
      Approaches r s t now s.targetValues s.targetTime := by
  obtain ⟨colors, length, between, whole, ok⟩ := updateLeds_early r delta early past.le
    (past.trans_le early) lengths bounded
  have ahead : 0 ≤ s.deltaTime now := by omega
  have within : s.deltaTime now ≤ s.targetTime - s.previousTime := by omega
  obtain ⟨k, unit, fraction, -⟩ := fraction_mem r ahead within (by omega)
  refine ⟨_, ok, ?_⟩
  exact {
    divides := fun _ => by omega
    fraction := fun _ => ⟨k, unit, fraction⟩
    length := length
    between := between
    reached := fun due => whole (le_antisymm early due) }

theorem Fed.tick {length : Nat} {clock now : Int} {session : Session}
    (fed : session.Fed length clock) (after : clock < now)
    (inTime : session.InTime (.updateLeds now)) (r : Rounding) :
    ∃ t, session.step r (.updateLeds now) = .ok t ∧ t.Fed length now ∧
      session.Smooths r (.updateLeds now) := by
  obtain ⟨s, latest⟩ := session
  cases latest with
  | none =>
    have idle : s.timer.isSome = false := by rw [fed.idle rfl, Option.isSome_none]
    have still : s.step r (.updateLeds now) = .ok s := if_neg (by simp [idle])
    refine ⟨⟨s, none⟩, bind_eq_ok.mpr ⟨s, still, rfl⟩, ?_, s, still, nofun⟩
    exact { fed with fed := fed.fed.later after.le }
  | some write =>
    obtain ⟨frame, due⟩ := write
    have running : s.timer.isSome = true := fed.running rfl
    obtain ⟨rfl, rfl⟩ : s.targetValues = frame ∧ s.targetTime = due := fed.target frame due rfl
    have lengths : s.targetValues.length = s.previousValues.length :=
      (fed.fed.target running).trans (fed.fed.previous running).symm
    have past : s.previousTime ≤ clock := fed.fed.past running
    have conforms : s.Conforms length (.updateLeds now) := fun _ =>
      ⟨fun late => (s.deltaTime_neg_iff now).mpr (inTime _ _ rfl late), fun _ => by omega⟩
    have ticked : ∃ t, s.updateLeds r now = .ok t ∧ t.Fed length now ∧
        t.timer.isSome = true ∧ t.targetValues = s.targetValues ∧
        t.targetTime = s.targetTime ∧
        Approaches r s t now s.targetValues s.targetTime := by
      rcases lt_or_ge s.targetTime now with late | early
      · obtain ⟨t, ok, fedT, timer, values, time, -⟩ :=
          fed.fed.late running after.le conforms late r
        obtain ⟨u, okU, approaches⟩ := approaches_late r ((conforms running).1 late) lengths
          fed.fed.bounded
        obtain rfl : u = t := Except.ok.inj (okU.symm.trans ok)
        exact ⟨u, ok, fedT, timer, values, time, approaches⟩
      · obtain ⟨t, _, ok, fedT, timer, values, time, -⟩ :=
          fed.fed.early running after.le conforms early r
        obtain ⟨u, okU, approaches⟩ := approaches_early r
          (deltaTime_eq fed.fed running after.le early) early (past.trans_lt after) lengths.symm
          fed.fed.bounded
        obtain rfl : u = t := Except.ok.inj (okU.symm.trans ok)
        exact ⟨u, ok, fedT, timer, values, time, approaches⟩
    obtain ⟨t, ok, fedT, timer, values, time, approaches⟩ := ticked
    have stepped : s.step r (.updateLeds now) = .ok t := (if_pos running).trans ok
    refine ⟨_, bind_eq_ok.mpr ⟨t, stepped, rfl⟩, ?_, t, stepped, ?_⟩
    · exact {
        fed := fedT
        running := fun _ => timer
        idle := nofun
        target := by
          rintro frame due latest
          obtain ⟨rfl, rfl⟩ := Prod.mk.inj (Option.some.inj latest)
          exact ⟨values, time⟩ }
    · rintro frame due latest
      obtain ⟨rfl, rfl⟩ := Prod.mk.inj (Option.some.inj latest)
      exact approaches

theorem Fed.smooths {r : Rounding} {length : Nat} {ops : List Op} {clock : Int}
    {session : Session} (fed : session.Fed length clock) (increasing : Increasing length clock ops)
    (inTime : Along (step r) InTime session ops) : Along (step r) (Smooths r) session ops := by
  induction ops generalizing session clock with
  | nil => trivial
  | cons op rest ih =>
    have stepped : ∃ t, session.step r op = .ok t ∧ t.Fed length (op.ends clock) ∧
        session.Smooths r op := by
      cases op with
      | write values now later => exact fed.write increasing.1 r
      | updateLeds now => exact fed.tick increasing.1 inTime.1 r
      | switchOff => exact increasing.1.elim
      | setEnable enable => exact increasing.1.elim
    obtain ⟨t, ok, fedT, smooths⟩ := stepped
    refine ⟨smooths, fun u hu => ?_⟩
    obtain rfl : t = u := Except.ok.inj (ok.symm.trans hu)
    exact ih fedT increasing.2 (inTime.2 t ok)

/-- In a run of writes and ticks at increasing times whose late ticks are in
time, every tick divides by a positive span, stays between the previous colours
and the latest frame, and shows that frame from its due time on. -/
theorem smooths_of_inTime (r : Rounding) (frequency : ℚ) {settling : Int}
    (small : settling < 2 ^ 31) (delay : Nat) (continuous : Bool) {length : Nat} {clock : Int}
    {ops : List Op} (increasing : Increasing length clock ops)
    (inTime : Along (step r) InTime ⟨new frequency settling delay continuous, none⟩ ops) :
    Along (step r) (Smooths r) ⟨new frequency settling delay continuous, none⟩ ops := by
  refine Fed.smooths ?_ increasing inTime
  exact {
    fed := new_fed frequency small delay continuous length clock
    running := nofun
    idle := fun _ => rfl
    target := nofun }

theorem smooths_moved_target :
    Along (step .exact) (Smooths .exact) ⟨new 25 200 1 false, none⟩
      [.write [⟨0, 0, 0⟩] 0 0, .updateLeds 40, .write [⟨200, 9, 9⟩] 60 61, .updateLeds 80,
        .updateLeds 300] := by
  have checked : checksAlong (step .exact) (fun session op => decide (session.InTime op))
      ⟨new 25 200 1 false, none⟩
      [.write [⟨0, 0, 0⟩] 0 0, .updateLeds 40, .write [⟨200, 9, 9⟩] 60 61, .updateLeds 80,
        .updateLeds 300] = true := by decide +kernel
  have increasing : Increasing 1 (-1)
      [.write [⟨0, 0, 0⟩] 0 0, .updateLeds 40, .write [⟨200, 9, 9⟩] 60 61, .updateLeds 80,
        .updateLeds 300] := by decide
  exact smooths_of_inTime .exact 25 (by decide) 1 false increasing
    (along_of_checks checked fun _ _ _ h => of_decide_eq_true h)

/-- A tick 2 ^ 31 + 1 ms after the target time sees the time as ahead. -/
theorem not_smooths_overdue :
    Increasing 1 (-1) [.write [⟨0, 0, 0⟩] 0 0, .write [⟨8, 8, 8⟩] 1 1,
        .updateLeds (201 + 2 ^ 31 + 1)] ∧
      ¬ Along (step .exact) (Smooths .exact) ⟨new 25 200 0 false, none⟩
        ([.write [⟨0, 0, 0⟩] 0 0, .write [⟨8, 8, 8⟩] 1 1] ++
          [.updateLeds (201 + 2 ^ 31 + 1)]) := by
  have faults : evaluates (step .exact) (.ok ⟨new 25 200 0 false, none⟩)
      [.write [⟨0, 0, 0⟩] 0 0, .write [⟨8, 8, 8⟩] 1 1]
      (fun session => !returnsWith (session.smoothing.step .exact
        (.updateLeds (201 + 2 ^ 31 + 1))) fun _ => true) = true := by decide +kernel
  refine ⟨by decide, fun smooths => ?_⟩
  obtain ⟨_, session, same, run, stuck⟩ := exists_of_evaluates faults
  obtain rfl := Except.ok.inj same
  obtain ⟨t, ok, -⟩ := ((along_append.mp smooths).2 session run).1
  rw [ok] at stuck
  exact absurd stuck (by simp [returnsWith])

end Session

end LinearColorSmoothing

end HyperionNg
