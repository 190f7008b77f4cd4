import HyperionNg.Library.Execution

/-! Search loops over indices whose test may fault: counting up to the first
index that passes, and counting down while the next lower index passes. -/

namespace HyperionNg.Library.Search

open Execution

variable {ε : Type}

/-- `for (i = start; i < start + count; ++i) if (test(i)) return i;` -/
def first (test : Nat → Except ε Bool) : (start count : Nat) → Except ε (Option Nat)
  | _, 0 => pure none
  | i, count + 1 => do
    if ← test i then pure (some i) else first test (i + 1) count

/-- `for (; i > 0; --i) if (stop(i - 1)) break;` -/
def lower (stop : Nat → Except ε Bool) : Nat → Except ε Nat
  | 0 => pure 0
  | i + 1 => do
    if ← stop i then pure (i + 1) else lower stop i

theorem first_range {test : Nat → Except ε Bool} {start count i : Nat}
    (found : first test start count = .ok (some i)) : start ≤ i ∧ i < start + count := by
  induction count generalizing start with
  | zero => simp [first, pure, Except.pure] at found
  | succ count ih =>
    obtain ⟨passes, _, rest⟩ := bind_eq_ok.mp found
    cases passes with
    | true =>
      have here : start = i := by simpa [pure, Except.pure] using rest
      omega
    | false =>
      have later := ih (by simpa using rest)
      omega

theorem first_of_least {test : Nat → Except ε Bool} {start count i : Nat} (le : start ≤ i)
    (lt : i < start + count) (before : ∀ j, start ≤ j → j < i → test j = .ok false)
    (passes : test i = .ok true) : first test start count = .ok (some i) := by
  induction count generalizing start with
  | zero => omega
  | succ count ih =>
    by_cases here : start = i
    · subst here
      simp [first, passes, bind, Except.bind, pure, Except.pure]
    · have skipped := before start (le_refl start) (by omega)
      have later := ih (show start + 1 ≤ i by omega) (by omega)
        fun j hle hlt => before j (by omega) hlt
      simp [first, skipped, later, bind, Except.bind]

theorem first_of_always {test : Nat → Except ε Bool} {start count i : Nat}
    (always : ∀ j passes, test j = .ok passes → passes = true)
    (found : first test start count = .ok (some i)) : i = start := by
  cases count with
  | zero => simp [first, pure, Except.pure] at found
  | succ count =>
    obtain ⟨passes, here, rest⟩ := bind_eq_ok.mp found
    rw [always start passes here] at rest
    have same : start = i := by simpa [pure, Except.pure] using rest
    exact same.symm

theorem lower_le {stop : Nat → Except ε Bool} {start i : Nat}
    (ends : lower stop start = .ok i) : i ≤ start := by
  induction start with
  | zero =>
    have zero : 0 = i := by simpa [lower, pure, Except.pure] using ends
    omega
  | succ start ih =>
    obtain ⟨stops, _, rest⟩ := bind_eq_ok.mp ends
    cases stops with
    | true =>
      have here : start + 1 = i := by simpa [pure, Except.pure] using rest
      omega
    | false =>
      have further := ih (by simpa using rest)
      omega

/-- The countdown ends at `i` when it may pass everything from `i` up and is
stopped right below it. -/
theorem lower_of_stop {stop : Nat → Except ε Bool} {start i : Nat} (le : i ≤ start)
    (passes : ∀ j, i ≤ j → j < start → stop j = .ok false)
    (stops : i = 0 ∨ stop (i - 1) = .ok true) : lower stop start = .ok i := by
  induction start with
  | zero =>
    have zero : i = 0 := by omega
    simp [lower, zero, pure, Except.pure]
  | succ start ih =>
    by_cases here : i = start + 1
    · have stopped : stop start = .ok true := by
        cases stops with
        | inl zero => omega
        | inr stops => simpa [here] using stops
      simp [lower, stopped, here, bind, Except.bind, pure, Except.pure]
    · have passed := passes start (by omega) (by omega)
      have further := ih (by omega) fun j hle hlt => passes j hle (by omega)
      simp [lower, passed, further, bind, Except.bind]

theorem first_of_answers {test : Nat → Except ε Bool} {answer : Nat → Bool} {start count : Nat}
    (answers : ∀ i, start ≤ i → i < start + count → test i = .ok (answer i)) :
    first test start count = .ok ((List.range' start count).find? answer) := by
  induction count generalizing start with
  | zero => rfl
  | succ count ih =>
    have here := answers start le_rfl (by omega)
    have later : first test (start + 1) count = _ :=
      ih fun i hle hlt => answers i (by omega) (by omega)
    simp only [first, here, later, List.range'_succ, List.find?_cons, bind, Except.bind]
    cases answer start with
    | true => rfl
    | false => rfl

theorem exists_lower (answer : Nat → Bool) (start : Nat) :
    ∃ i ≤ start, ∀ stop : Nat → Except ε Bool, (∀ j < start, stop j = .ok (answer j)) →
      lower stop start = .ok i := by
  induction start with
  | zero => exact ⟨0, le_rfl, fun _ _ => rfl⟩
  | succ start ih =>
    cases below : answer start with
    | true =>
      refine ⟨start + 1, le_rfl, fun stop answers => ?_⟩
      simp [lower, answers start (by omega), below, bind, Except.bind, pure, Except.pure]
    | false =>
      obtain ⟨i, le, ends⟩ := ih
      refine ⟨i, by omega, fun stop answers => ?_⟩
      have further := ends stop fun j hj => answers j (by omega)
      simp [lower, answers start (by omega), below, further, bind, Except.bind]

end HyperionNg.Library.Search
