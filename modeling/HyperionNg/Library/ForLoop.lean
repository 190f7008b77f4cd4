import Mathlib.Data.List.Range
import Mathlib.Data.List.Chain
import Mathlib.Tactic

/-! A counted `for` loop, run with fuel, and the values that its counter takes. -/

namespace HyperionNg.Library.ForLoop

variable {σ : Type}

/-- `for (; test(i); i += step) body`. Without fuel there is no result. -/
def forLoop (test : Int → Bool) (step : Int) (body : Int → σ → Option σ) :
    Nat → Int → σ → Option σ
  | 0, _, _ => none
  | fuel + 1, i, s =>
    if test i then (body i s).bind (forLoop test step body fuel (i + step)) else some s

/-- The first `n` values of a counter. -/
def counter (first step : Int) : Nat → List Int
  | 0 => []
  | n + 1 => first :: counter (first + step) step n

theorem length_counter (first step : Int) (n : Nat) : (counter first step n).length = n := by
  induction n generalizing first with
  | zero => rfl
  | succ n ih => rw [counter, List.length_cons, ih]

theorem counter_concat (first step : Int) (n : Nat) :
    counter first step (n + 1) = counter first step n ++ [first + step * n] := by
  induction n generalizing first with
  | zero => simp [counter]
  | succ n ih =>
    rw [counter, ih, counter, List.cons_append]
    congr 3
    push_cast
    ring

theorem mem_counter {first step x : Int} {n : Nat} :
    x ∈ counter first step n ↔ ∃ k < n, x = first + step * k := by
  induction n with
  | zero => simp [counter]
  | succ n ih =>
    rw [counter_concat, List.mem_append, List.mem_singleton, ih, Nat.exists_lt_succ_right]

theorem reverse_counter (first step : Int) (n : Nat) :
    (counter first step n).reverse = counter (first + step * (n - 1)) (-step) n := by
  induction n with
  | zero => rfl
  | succ n ih =>
    rw [counter_concat, List.reverse_append, ih, counter]
    simp only [List.reverse_singleton, List.singleton_append, List.cons.injEq]
    constructor
    · push_cast
      ring
    · congr 1
      push_cast
      ring

theorem isChain_counter (first step : Int) (n : Nat) :
    (counter first step n).IsChain fun x y => y = x + step := by
  induction n generalizing first with
  | zero => exact .nil
  | succ n ih =>
    cases n with
    | zero => exact .singleton _
    | succ n => exact .cons_cons rfl (ih (first + step))

theorem nodup_counter (first : Int) {step : Int} (moves : step ≠ 0) (n : Nat) :
    (counter first step n).Nodup := by
  induction n generalizing first with
  | zero => exact .nil
  | succ n ih =>
    refine List.nodup_cons.mpr ⟨fun again => ?_, ih _⟩
    obtain ⟨k, -, same⟩ := mem_counter.mp again
    have zero : step * (k + 1) = 0 := by linarith
    rcases mul_eq_zero.mp zero with still | back
    · exact moves still
    · omega

theorem forLoop_eq_foldlM {test : Int → Bool} {step first : Int} {body : Int → σ → Option σ}
    {n fuel : Nat} (runs : ∀ k < n, test (first + step * k)) (ends : ¬ test (first + step * n))
    (enough : n < fuel) (s : σ) : forLoop test step body fuel first s =
      (counter first step n).foldlM (fun s i => body i s) s := by
  induction n generalizing fuel first s with
  | zero =>
    obtain ⟨fuel, rfl⟩ := Nat.exists_eq_succ_of_ne_zero enough.ne'
    have stop : ¬ test first := by simpa using ends
    simp [forLoop, stop, counter]
  | succ n ih =>
    obtain ⟨fuel, rfl⟩ := Nat.exists_eq_add_of_lt (Nat.lt_of_le_of_lt (Nat.zero_le _) enough)
    have go : test first := by simpa using runs 0 (Nat.succ_pos n)
    have next : ∀ k : Nat, first + step + step * k = first + step * (k + 1 : Nat) := by
      intro k
      push_cast
      ring
    rw [Nat.zero_add, forLoop, if_pos go, counter, List.foldlM_cons]
    refine Option.bind_congr fun t _ => ih (fun k lt => ?_) ?_ (by omega) t
    · rw [next]
      exact runs (k + 1) (Nat.succ_lt_succ lt)
    · rwa [next]

/-- The values from `a` to `b`, both included, whichever is the larger. -/
def span (a b : Int) : List Int :=
  if a ≤ b then counter a 1 (b - a + 1).toNat else counter a (-1) (a - b + 1).toNat

theorem span_of_ge {a b : Int} (ge : b ≤ a) : span a b = counter a (-1) (a - b + 1).toNat := by
  unfold span
  split_ifs with le
  · obtain rfl : a = b := le_antisymm le ge
    simp [counter]
  · rfl

theorem length_span (a b : Int) : (span a b).length = (b - a).natAbs + 1 := by
  unfold span
  split_ifs <;> rw [length_counter] <;> omega

theorem mem_span {a b x : Int} : x ∈ span a b ↔ a ≤ x ∧ x ≤ b ∨ b ≤ x ∧ x ≤ a := by
  unfold span
  split_ifs
  · rw [mem_counter]
    constructor
    · rintro ⟨k, lt, rfl⟩
      omega
    · intro inside
      exact ⟨(x - a).toNat, by omega, by omega⟩
  · rw [mem_counter]
    constructor
    · rintro ⟨k, lt, rfl⟩
      omega
    · intro inside
      exact ⟨(a - x).toNat, by omega, by omega⟩

theorem nodup_span (a b : Int) : (span a b).Nodup := by
  unfold span
  split_ifs
  · exact nodup_counter a (by decide) _
  · exact nodup_counter a (by decide) _

theorem reverse_span (a b : Int) : (span a b).reverse = span b a := by
  rcases lt_trichotomy a b with less | rfl | more
  · rw [span, if_pos less.le, span, if_neg (by omega), reverse_counter]
    congr 1
    omega
  · simp [span, counter]
  · rw [span, if_neg (by omega), span, if_pos more.le, reverse_counter]
    congr 1
    omega

theorem head?_span (a b : Int) : (span a b).head? = some a := by
  unfold span
  split_ifs with up
  · rw [show (b - a + 1).toNat = (b - a).toNat + 1 by omega, counter, List.head?_cons]
  · rw [show (a - b + 1).toNat = (a - b).toNat + 1 by omega, counter, List.head?_cons]

theorem isChain_span (a b : Int) : (span a b).IsChain fun x y => (x - y).natAbs = 1 := by
  unfold span
  split_ifs
  · exact (isChain_counter a 1 _).imp fun x y next => by omega
  · exact (isChain_counter a (-1) _).imp fun x y next => by omega

theorem forLoop_span {up : Bool} {body : Int → σ → Option σ} {a b : Int} {fuel : Nat}
    (direction : if up then a ≤ b else b ≤ a) (enough : (b - a).natAbs + 1 < fuel) (s : σ) :
    forLoop (fun i => up && decide (i ≤ b) || !up && decide (b ≤ i)) (if up then 1 else -1)
      body fuel a s = (span a b).foldlM (fun s i => body i s) s := by
  cases up with
  | true =>
    have le : a ≤ b := direction
    rw [span, if_pos le]
    refine forLoop_eq_foldlM (fun k lt => ?_) ?_ (by omega) s
    · simp only [Bool.true_and, Bool.not_true, Bool.false_and, Bool.or_false, decide_eq_true_eq,
        if_true]
      omega
    · simp only [Bool.true_and, Bool.not_true, Bool.false_and, Bool.or_false, decide_eq_true_eq,
        if_true]
      omega
  | false =>
    have ge : b ≤ a := direction
    rw [span_of_ge ge]
    refine forLoop_eq_foldlM (fun k lt => ?_) ?_ (by omega) s
    · simp only [Bool.false_and, Bool.not_false, Bool.true_and, Bool.false_or, decide_eq_true_eq,
        Bool.false_eq_true, if_false]
      omega
    · simp only [Bool.false_and, Bool.not_false, Bool.true_and, Bool.false_or, decide_eq_true_eq,
        Bool.false_eq_true, if_false]
      omega

end HyperionNg.Library.ForLoop
