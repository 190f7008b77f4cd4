import Mathlib.Algebra.BigOperators.Field
import Mathlib.Algebra.Order.BigOperators.Group.Finset
import Mathlib.Tactic

/-! Sums of truncated quotients, once and twice truncated, against the sum of
the exact quotients. -/

namespace HyperionNg.Library.FloorSum

private theorem lt_div_add_one {d : Nat} (w : Nat) (positive : 0 < d) :
    (w : ℚ) / d < (w / d : Nat) + 1 := by
  have remainder : w < w / d * d + d := Nat.lt_div_mul_add positive
  have denominator : (0 : ℚ) < d := by exact_mod_cast positive
  rw [div_lt_iff₀ denominator, add_mul, one_mul]
  exact_mod_cast remainder

theorem twice_le (w k d m : Nat) : ((w / d * k / m : Nat) : ℚ) ≤ w / d * k / m := by
  have inner : ((w / d : Nat) : ℚ) ≤ w / d := Nat.cast_div_le
  have outer : ((w / d * k / m : Nat) : ℚ) ≤ (w / d * k : Nat) / m := Nat.cast_div_le
  calc ((w / d * k / m : Nat) : ℚ) ≤ ((w / d : Nat) : ℚ) * k / m := by
        rw [Nat.cast_mul] at outer
        exact outer
    _ ≤ w / d * k / m := by gcongr

theorem lt_twice_add_two {k d m : Nat} (w : Nat) (hd : 0 < d) (hm : 0 < m) (le : k ≤ m) :
    (w : ℚ) / d * k / m < (w / d * k / m : Nat) + 2 := by
  have denominator : (0 : ℚ) < m := by exact_mod_cast hm
  have inner := lt_div_add_one w hd
  have outer := lt_div_add_one (w / d * k) hm
  rw [Nat.cast_mul] at outer
  have factor : (k : ℚ) / m ≤ 1 := by
    rw [div_le_one denominator]
    exact_mod_cast le
  have grown : (w : ℚ) / d * k / m ≤ ((w / d : Nat) + 1) * k / m := by gcongr
  have split : (((w / d : Nat) : ℚ) + 1) * k / m = ((w / d : Nat) : ℚ) * k / m + k / m := by ring
  linarith

variable {ι : Type} [Fintype ι]

theorem sum_div_le (w : ι → Nat) (d : Nat) : ∑ i, w i / d ≤ (∑ i, w i) / d := by
  by_cases zero : d = 0
  · simp [zero]
  · rw [Nat.le_div_iff_mul_le (by omega), Finset.sum_mul]
    exact Finset.sum_le_sum fun i _ => Nat.div_mul_le_self (w i) d

theorem sum_twice_le (w k : ι → Nat) (d m : Nat) :
    ((∑ i, w i / d * k i / m : Nat) : ℚ) ≤ ∑ i, (w i : ℚ) / d * k i / m := by
  rw [Nat.cast_sum]
  exact Finset.sum_le_sum fun i _ => twice_le (w i) (k i) d m

theorem sum_lt_twice [Nonempty ι] {w k : ι → Nat} {d m : Nat} (hd : 0 < d) (hm : 0 < m)
    (le : ∀ i, k i ≤ m) : ∑ i, (w i : ℚ) / d * k i / m <
      ((∑ i, w i / d * k i / m : Nat) : ℚ) + 2 * Fintype.card ι := by
  have each : ∀ i ∈ Finset.univ, (w i : ℚ) / d * k i / m < (w i / d * k i / m : Nat) + 2 :=
    fun i _ => lt_twice_add_two (w i) hd hm (le i)
  have total := Finset.sum_lt_sum_of_nonempty Finset.univ_nonempty each
  rw [Finset.sum_add_distrib, ← Nat.cast_sum] at total
  simpa [mul_comm] using total

end HyperionNg.Library.FloorSum
