import Mathlib.Tactic
import Mathlib.Data.Rat.Floor

/-! The rounding of a floating-point format, as far as it decides ranges: it
is monotone and keeps the small integers. -/

namespace HyperionNg.Library

/-- `2 ^ 24` is the bound up to which single precision has every integer. -/
structure Rounding where
  round : ℚ → ℚ
  monotone : Monotone round
  round_natCast : ∀ n : ℕ, n ≤ 2 ^ 24 → round n = n

namespace Rounding

def exact : Rounding := ⟨id, monotone_id, fun _ _ => rfl⟩

variable (r : Rounding)

@[simp] theorem round_zero : r.round 0 = 0 := by simpa using r.round_natCast 0 (by norm_num)

@[simp] theorem round_one : r.round 1 = 1 := by simpa using r.round_natCast 1 (by norm_num)

theorem round_nonneg {q : ℚ} (h : 0 ≤ q) : 0 ≤ r.round q := by
  simpa using r.monotone h

private theorem round_le_natCast {q : ℚ} {n : ℕ} (hn : n ≤ 2 ^ 24) (h : q ≤ n) : r.round q ≤ n :=
  r.round_natCast n hn ▸ r.monotone h

private theorem round_le_one {q : ℚ} (h : q ≤ 1) : r.round q ≤ 1 := by
  simpa using r.monotone h

theorem round_div_mem {a b : ℚ} (ha : 0 ≤ a) (hab : a ≤ b) :
    r.round (r.round a / r.round b) ∈ Set.Icc 0 1 := by
  have hnum := r.round_nonneg ha
  have hle : r.round a ≤ r.round b := r.monotone hab
  exact ⟨r.round_nonneg (div_nonneg hnum (hnum.trans hle)),
    r.round_le_one (div_le_one_of_le₀ hle (hnum.trans hle))⟩

theorem round_one_sub_mem {q : ℚ} (h : q ∈ Set.Icc 0 1) : r.round (1 - q) ∈ Set.Icc 0 1 :=
  ⟨r.round_nonneg (sub_nonneg.mpr h.2), r.round_le_one (sub_le_self 1 h.1)⟩

theorem ceil_round_mul_mem {k : ℚ} (hk : k ∈ Set.Icc 0 1) {n : ℕ} (hn : n ≤ 2 ^ 24) :
    0 ≤ ⌈r.round (k * n)⌉ ∧ ⌈r.round (k * n)⌉ ≤ n := by
  have hprod : k * n ≤ n := mul_le_of_le_one_left (Nat.cast_nonneg n) hk.2
  refine ⟨Int.ceil_nonneg (r.round_nonneg (mul_nonneg hk.1 (Nat.cast_nonneg n))), ?_⟩
  exact Int.ceil_le.mpr (by simpa using r.round_le_natCast hn hprod)

end Rounding

end HyperionNg.Library
