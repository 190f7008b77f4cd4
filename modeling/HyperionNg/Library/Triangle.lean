import Mathlib.Analysis.Convex.Combination
import Mathlib.Tactic

/-! The point of a triangle that is nearest to a given one, over any ordered
field: outside the triangle it is the nearest of the nearest points of the edges. -/

namespace HyperionNg.Library.Triangle

variable {K : Type*} [Field K]

def distSq (p q : K × K) : K := (p.1 - q.1) ^ 2 + (p.2 - q.2) ^ 2

def cross (v w : K × K) : K := v.1 * w.2 - v.2 * w.1

variable (a b c : K × K)

def along (p : K × K) : K × K :=
  (cross (p - a) (c - a) / cross (b - a) (c - a), cross (b - a) (p - a) / cross (b - a) (c - a))

def fromCoordinates (k : K × K) : K × K := a + k.1 • (b - a) + k.2 • (c - a)

variable {a b c}

theorem fromCoordinates_along (proper : cross (b - a) (c - a) ≠ 0) (p : K × K) :
    fromCoordinates a b c (along a b c p) = p := by
  ext
  · simp only [fromCoordinates, along, Prod.fst_add, Prod.smul_fst, Prod.fst_sub, smul_eq_mul]
    field_simp
    simp only [cross, Prod.fst_sub, Prod.snd_sub]
    ring
  · simp only [fromCoordinates, along, Prod.snd_add, Prod.smul_snd, Prod.snd_sub, smul_eq_mul]
    field_simp
    simp only [cross, Prod.fst_sub, Prod.snd_sub]
    ring

theorem along_fromCoordinates (proper : cross (b - a) (c - a) ≠ 0) (k : K × K) :
    along a b c (fromCoordinates a b c k) = k := by
  ext
  · rw [along, div_eq_iff proper]
    simp only [fromCoordinates, cross, Prod.fst_add, Prod.snd_add, Prod.fst_sub, Prod.snd_sub,
      Prod.smul_fst, Prod.smul_snd, smul_eq_mul]
    ring
  · rw [along, div_eq_iff proper]
    simp only [fromCoordinates, cross, Prod.fst_add, Prod.snd_add, Prod.fst_sub, Prod.snd_sub,
      Prod.smul_fst, Prod.smul_snd, smul_eq_mul]
    ring

theorem distinct_of_cross (proper : cross (b - a) (c - a) ≠ 0) : a ≠ b ∧ c ≠ a ∧ b ≠ c := by
  refine ⟨?_, ?_, ?_⟩
  · rintro rfl
    simp [cross] at proper
  · rintro rfl
    simp [cross] at proper
  · rintro rfl
    exact proper (by rw [cross]; ring)

variable [LinearOrder K]

def clamp (t : K) : K := if t < 0 then 0 else if 1 < t then 1 else t

/-- How far from `a` to `b` the foot of the perpendicular from `p` is. -/
def foot (a b p : K × K) : K :=
  ((p.1 - a.1) * (b.1 - a.1) + (p.2 - a.2) * (b.2 - a.2)) /
    ((b.1 - a.1) * (b.1 - a.1) + (b.2 - a.2) * (b.2 - a.2))

/-- The point of a segment that is nearest to `p`. -/
def nearest (a b p : K × K) : K × K := a + clamp (foot a b p) • (b - a)

def nearestOf (p ab ca bc : K × K) : K × K :=
  if distSq p ca < distSq p ab then
    if distSq p bc < distSq p ca then bc else ca
  else if distSq p bc < distSq p ab then bc else ab

theorem nearestOf_spec (p ab ca bc : K × K) :
    (nearestOf p ab ca bc = ab ∨ nearestOf p ab ca bc = ca ∨ nearestOf p ab ca bc = bc) ∧
      distSq p (nearestOf p ab ca bc) ≤ distSq p ab ∧
      distSq p (nearestOf p ab ca bc) ≤ distSq p ca ∧
      distSq p (nearestOf p ab ca bc) ≤ distSq p bc := by
  unfold nearestOf
  split_ifs with first second second
  · exact ⟨.inr (.inr rfl), (second.trans first).le, second.le, le_rfl⟩
  · exact ⟨.inr (.inl rfl), first.le, le_rfl, not_lt.mp second⟩
  · exact ⟨.inr (.inr rfl), second.le, second.le.trans (not_lt.mp first), le_rfl⟩
  · exact ⟨.inl rfl, le_rfl, not_lt.mp first, not_lt.mp second⟩

/-- `r` is the point of `S` that is nearest to `p`. -/
structure Nearest (S : Set (K × K)) (p r : K × K) : Prop where
  mem : r ∈ S
  least : ∀ q ∈ S, q ≠ r → distSq p r < distSq p q

variable [IsStrictOrderedRing K]

theorem clamp_mem (t : K) : 0 ≤ clamp t ∧ clamp t ≤ 1 := by
  unfold clamp
  split_ifs with low high
  · exact ⟨le_rfl, zero_le_one⟩
  · exact ⟨zero_le_one, le_rfl⟩
  · exact ⟨not_lt.mp low, not_lt.mp high⟩

theorem clamp_nearest {t u : K} (low : 0 ≤ u) (high : u ≤ 1) : (clamp t - t) ^ 2 ≤ (u - t) ^ 2 := by
  unfold clamp
  split_ifs with below above
  · nlinarith
  · nlinarith
  · rw [sub_self, zero_pow two_ne_zero]
    exact sq_nonneg _

theorem distSq_nonneg (p q : K × K) : 0 ≤ distSq p q :=
  add_nonneg (sq_nonneg _) (sq_nonneg _)

private theorem eq_of_distSq_nonpos {p q : K × K} (h : distSq p q ≤ 0) : p = q := by
  unfold distSq at h
  have first : (p.1 - q.1) ^ 2 = 0 := by nlinarith [sq_nonneg (p.1 - q.1), sq_nonneg (p.2 - q.2)]
  have second : (p.2 - q.2) ^ 2 = 0 := by nlinarith [sq_nonneg (p.1 - q.1), sq_nonneg (p.2 - q.2)]
  exact Prod.ext (sub_eq_zero.mp (pow_eq_zero_iff two_ne_zero |>.mp first))
    (sub_eq_zero.mp (pow_eq_zero_iff two_ne_zero |>.mp second))

theorem lengthSq_ne_zero {a b : K × K} (distinct : a ≠ b) :
    (b.1 - a.1) * (b.1 - a.1) + (b.2 - a.2) * (b.2 - a.2) ≠ 0 := by
  intro zero
  refine distinct (eq_of_distSq_nonpos (le_of_eq ?_))
  rw [← zero, distSq]
  ring

/-- Pythagoras: the square of the distance to a point of the line through `a` and
`b`, from the foot on. -/
theorem distSq_along {a b : K × K} (distinct : a ≠ b) (p : K × K) (u : K) :
    distSq p (a + u • (b - a)) =
      distSq p (a + foot a b p • (b - a)) + (u - foot a b p) ^ 2 * distSq a b := by
  have length := lengthSq_ne_zero distinct
  have perpendicular : foot a b p * distSq a b =
      (p.1 - a.1) * (b.1 - a.1) + (p.2 - a.2) * (b.2 - a.2) := by
    rw [foot, div_mul_eq_mul_div, div_eq_iff length, distSq]
    ring
  simp only [distSq, Prod.fst_add, Prod.snd_add, Prod.smul_fst, Prod.smul_snd, Prod.fst_sub,
    Prod.snd_sub, smul_eq_mul] at perpendicular ⊢
  linear_combination 2 * (u - foot a b p) * perpendicular

theorem nearest_mem (a b p : K × K) : nearest a b p ∈ segment K a b := by
  rw [segment_eq_image']
  exact ⟨_, clamp_mem _, rfl⟩

theorem distSq_nearest_le {a b : K × K} (distinct : a ≠ b) (p : K × K) {q : K × K}
    (mem : q ∈ segment K a b) : distSq p (nearest a b p) ≤ distSq p q := by
  rw [segment_eq_image'] at mem
  obtain ⟨u, ⟨low, high⟩, rfl⟩ := mem
  rw [nearest, distSq_along distinct, distSq_along distinct p u]
  have less := mul_le_mul_of_nonneg_right (clamp_nearest (t := foot a b p) low high)
    (distSq_nonneg a b)
  linarith

theorem nearest_unique {S : Set (K × K)} (convex : Convex K S) {p q r : K × K} (hq : q ∈ S)
    (hr : r ∈ S) (least : ∀ z ∈ S, distSq p r ≤ distSq p z) (near : distSq p q ≤ distSq p r) :
    q = r := by
  have middle : (2⁻¹ : K) • q + (2⁻¹ : K) • r ∈ S :=
    convex hq hr (by positivity) (by positivity) (by norm_num)
  have between : distSq p ((2⁻¹ : K) • q + (2⁻¹ : K) • r) =
      (distSq p q + distSq p r) / 2 - distSq q r / 4 := by
    simp only [distSq, Prod.fst_add, Prod.snd_add, Prod.smul_fst, Prod.smul_snd, smul_eq_mul]
    ring
  have least := least _ middle
  exact eq_of_distSq_nonpos (by linarith)

def Inside (k : K × K) : Prop := 0 ≤ k.1 ∧ 0 ≤ k.2 ∧ k.1 + k.2 ≤ 1

theorem convex_fromCoordinates :
    Convex K {p | ∃ k, Inside k ∧ fromCoordinates a b c k = p} := by
  rintro _ ⟨k, hk, rfl⟩ _ ⟨m, hm, rfl⟩ u v hu hv sum
  refine ⟨u • k + v • m, ?_, ?_⟩
  · refine ⟨add_nonneg (mul_nonneg hu hk.1) (mul_nonneg hv hm.1),
      add_nonneg (mul_nonneg hu hk.2.1) (mul_nonneg hv hm.2.1), ?_⟩
    have first := mul_le_mul_of_nonneg_left hk.2.2 hu
    have second := mul_le_mul_of_nonneg_left hm.2.2 hv
    simp only [Prod.fst_add, Prod.snd_add, Prod.smul_fst, Prod.smul_snd, smul_eq_mul]
    linarith
  · obtain rfl : v = 1 - u := by linarith
    ext
    · simp only [fromCoordinates, Prod.fst_add, Prod.snd_add, Prod.smul_fst, Prod.smul_snd,
        Prod.fst_sub, smul_eq_mul]
      ring
    · simp only [fromCoordinates, Prod.fst_add, Prod.snd_add, Prod.smul_fst, Prod.smul_snd,
        Prod.snd_sub, smul_eq_mul]
      ring

theorem fromCoordinates_mem {k : K × K} (inside : Inside k) :
    fromCoordinates a b c k ∈ convexHull K {a, b, c} := by
  obtain ⟨low, low', high⟩ := inside
  have combined := (convex_convexHull K {a, b, c}).sum_mem (t := Finset.univ)
    (w := ![1 - k.1 - k.2, k.1, k.2]) (z := ![a, b, c])
    (fun i _ => by fin_cases i <;> simp <;> linarith) (by simp [Fin.sum_univ_three]; ring)
    (fun i _ => subset_convexHull K _ (by fin_cases i <;> simp))
  have same : fromCoordinates a b c k =
      ∑ i, (![1 - k.1 - k.2, k.1, k.2] : Fin 3 → K) i • (![a, b, c] : Fin 3 → K × K) i := by
    ext
    · simp [Fin.sum_univ_three, fromCoordinates]
      ring
    · simp [Fin.sum_univ_three, fromCoordinates]
      ring
  exact same ▸ combined

theorem mem_convexHull_iff (p : K × K) :
    p ∈ convexHull K {a, b, c} ↔ ∃ k, Inside k ∧ fromCoordinates a b c k = p := by
  constructor
  · intro mem
    have corners : {a, b, c} ⊆ {p | ∃ k, Inside k ∧ fromCoordinates a b c k = p} := by
      rintro q (rfl | rfl | rfl)
      · exact ⟨(0, 0), by simp [Inside], by simp [fromCoordinates]⟩
      · exact ⟨(1, 0), by simp [Inside], by simp [fromCoordinates]⟩
      · exact ⟨(0, 1), by simp [Inside], by simp [fromCoordinates]⟩
    exact convexHull_min corners convex_fromCoordinates mem
  · rintro ⟨k, inside, rfl⟩
    exact fromCoordinates_mem inside

theorem inside_iff (proper : cross (b - a) (c - a) ≠ 0) (p : K × K) :
    Inside (along a b c p) ↔ p ∈ convexHull K {a, b, c} := by
  rw [mem_convexHull_iff]
  constructor
  · intro inside
    exact ⟨_, inside, fromCoordinates_along proper p⟩
  · rintro ⟨k, inside, rfl⟩
    rwa [along_fromCoordinates proper]

theorem exists_crossing {ι : Type*} [Fintype ι] {x y : ι → K} (nonneg : ∀ i, 0 ≤ x i)
    (outside : ∃ i, y i < 0) :
    ∃ t, 0 ≤ t ∧ t ≤ 1 ∧ (∃ i, (1 - t) * x i + t * y i = 0) ∧ ∀ i, 0 ≤ (1 - t) * x i + t * y i := by
  classical
  obtain ⟨i, hi, first⟩ := Finset.exists_min_image (Finset.univ.filter fun i => y i < 0)
    (fun i => x i / (x i - y i)) (by simpa [Finset.Nonempty] using outside)
  have below : y i < 0 := (Finset.mem_filter.mp hi).2
  have apart : 0 < x i - y i := by linarith [nonneg i]
  have low : 0 ≤ x i / (x i - y i) := div_nonneg (nonneg i) apart.le
  have high : x i / (x i - y i) ≤ 1 := by
    rw [div_le_one apart]
    linarith
  refine ⟨x i / (x i - y i), low, high, ⟨i, ?_⟩, fun j => ?_⟩
  · field_simp
    ring
  · rcases lt_or_ge (y j) 0 with negative | other
    · have least := first j (Finset.mem_filter.mpr ⟨Finset.mem_univ j, negative⟩)
      rw [le_div_iff₀ (by linarith [nonneg j])] at least
      linarith
    · exact add_nonneg (mul_nonneg (by linarith) (nonneg j)) (mul_nonneg low other)

theorem mem_edge {k : K × K} (inside : Inside k)
    (zero : 1 - k.1 - k.2 = 0 ∨ k.1 = 0 ∨ k.2 = 0) :
    fromCoordinates a b c k ∈ segment K b c ∨ fromCoordinates a b c k ∈ segment K c a ∨
      fromCoordinates a b c k ∈ segment K a b := by
  obtain ⟨low, low', high⟩ := inside
  rcases zero with zero | zero | zero
  · refine .inl ?_
    rw [segment_eq_image']
    refine ⟨k.2, ⟨low', by linarith⟩, ?_⟩
    rw [fromCoordinates, show k.1 = 1 - k.2 by linarith]
    module
  · refine .inr (.inl ?_)
    rw [segment_symm, segment_eq_image']
    exact ⟨k.2, ⟨low', by linarith⟩, by rw [fromCoordinates, zero, zero_smul, add_zero]⟩
  · refine .inr (.inr ?_)
    rw [segment_eq_image']
    exact ⟨k.1, ⟨low, by linarith⟩, by rw [fromCoordinates, zero, zero_smul, add_zero]⟩

theorem exists_edge (proper : cross (b - a) (c - a) ≠ 0) {p q : K × K}
    (outside : p ∉ convexHull K {a, b, c}) (mem : q ∈ convexHull K {a, b, c}) :
    ∃ z, (z ∈ segment K b c ∨ z ∈ segment K c a ∨ z ∈ segment K a b) ∧
      distSq p z ≤ distSq p q := by
  obtain ⟨k, ⟨low, low', high⟩, rfl⟩ := (mem_convexHull_iff q).mp mem
  have beyond : ¬ Inside (along a b c p) := fun inside => outside ((inside_iff proper p).mp inside)
  obtain ⟨m, rfl⟩ : ∃ m, fromCoordinates a b c m = p := ⟨_, fromCoordinates_along proper p⟩
  rw [along_fromCoordinates proper] at beyond
  have some : ∃ i, (![1 - m.1 - m.2, m.1, m.2] : Fin 3 → K) i < 0 := by
    by_contra none
    push Not at none
    have rest : 0 ≤ 1 - m.1 - m.2 := none 0
    exact beyond ⟨none 1, none 2, by linarith⟩
  have start : ∀ i, 0 ≤ (![1 - k.1 - k.2, k.1, k.2] : Fin 3 → K) i := by
    intro i
    fin_cases i
    · show 0 ≤ 1 - k.1 - k.2
      linarith
    · exact low
    · exact low'
  obtain ⟨t, t_low, t_high, ⟨i, zero⟩, nonneg⟩ := exists_crossing start some
  have first : 0 ≤ (1 - t) * (1 - k.1 - k.2) + t * (1 - m.1 - m.2) := nonneg 0
  refine ⟨fromCoordinates a b c ((1 - t) • k + t • m), mem_edge ⟨nonneg 1, nonneg 2, ?_⟩ ?_, ?_⟩
  · simp only [Prod.fst_add, Prod.snd_add, Prod.smul_fst, Prod.smul_snd, smul_eq_mul]
    linarith
  · simp only [Prod.fst_add, Prod.snd_add, Prod.smul_fst, Prod.smul_snd, smul_eq_mul]
    fin_cases i
    · have zero : (1 - t) * (1 - k.1 - k.2) + t * (1 - m.1 - m.2) = 0 := zero
      exact .inl (by linarith)
    · exact .inr (.inl zero)
    · exact .inr (.inr zero)
  · have scaled : distSq (fromCoordinates a b c m) (fromCoordinates a b c ((1 - t) • k + t • m)) =
        (1 - t) ^ 2 * distSq (fromCoordinates a b c m) (fromCoordinates a b c k) := by
      simp only [distSq, fromCoordinates, Prod.fst_add, Prod.snd_add, Prod.smul_fst, Prod.smul_snd,
        Prod.fst_sub, Prod.snd_sub, smul_eq_mul]
      ring
    rw [scaled]
    exact mul_le_of_le_one_left (distSq_nonneg _ _) (pow_le_one₀ (by linarith) (by linarith))

theorem distSq_le_of_edges (proper : cross (b - a) (c - a) ≠ 0) {p r : K × K}
    (outside : p ∉ convexHull K {a, b, c}) (ab : distSq p r ≤ distSq p (nearest a b p))
    (ca : distSq p r ≤ distSq p (nearest c a p)) (bc : distSq p r ≤ distSq p (nearest b c p)) :
    ∀ q ∈ convexHull K {a, b, c}, distSq p r ≤ distSq p q := by
  intro q mem
  have distinct := distinct_of_cross proper
  obtain ⟨z, edge, nearer⟩ := exists_edge proper outside mem
  rcases edge with edge | edge | edge
  · exact bc.trans ((distSq_nearest_le distinct.2.2 p edge).trans nearer)
  · exact ca.trans ((distSq_nearest_le distinct.2.1 p edge).trans nearer)
  · exact ab.trans ((distSq_nearest_le distinct.1 p edge).trans nearer)

theorem nearestOf_edges (proper : cross (b - a) (c - a) ≠ 0) {p : K × K}
    (outside : p ∉ convexHull K {a, b, c}) : Nearest (convexHull K {a, b, c}) p
      (nearestOf p (nearest a b p) (nearest c a p) (nearest b c p)) := by
  obtain ⟨one, ab, ca, bc⟩ := nearestOf_spec p (nearest a b p) (nearest c a p) (nearest b c p)
  have least := distSq_le_of_edges proper outside ab ca bc
  have mem : nearestOf p (nearest a b p) (nearest c a p) (nearest b c p) ∈
      convexHull K {a, b, c} := by
    rcases one with chosen | chosen | chosen
    · rw [chosen]
      exact segment_subset_convexHull (by simp) (by simp) (nearest_mem a b p)
    · rw [chosen]
      exact segment_subset_convexHull (by simp) (by simp) (nearest_mem c a p)
    · rw [chosen]
      exact segment_subset_convexHull (by simp) (by simp) (nearest_mem b c p)
  refine ⟨mem, fun q hq other => ?_⟩
  by_contra near
  exact other (nearest_unique (convex_convexHull K _) hq mem least (not_lt.mp near))

end HyperionNg.Library.Triangle
