import Mathlib.Order.Basic
import Mathlib.Data.List.Pairwise
import Mathlib.Tactic

/-! Rectangles that partition a box. With the lower sides taken away from each,
every point beyond the lower sides of the box is in exactly one. -/

namespace HyperionNg.Library.Rectangles

structure Rectangle (α : Type*) where
  left : α
  right : α
  top : α
  bottom : α

variable {α : Type*} [LinearOrder α]

namespace Rectangle

def Closed (r : Rectangle α) (x y : α) : Prop :=
  (r.left ≤ x ∧ x ≤ r.right) ∧ r.top ≤ y ∧ y ≤ r.bottom

def Interior (r : Rectangle α) (x y : α) : Prop :=
  (r.left < x ∧ x < r.right) ∧ r.top < y ∧ y < r.bottom

def HalfOpen (r : Rectangle α) (x y : α) : Prop :=
  (r.left < x ∧ x ≤ r.right) ∧ r.top < y ∧ y ≤ r.bottom

end Rectangle

structure Partition (box : Rectangle α) (tiles : List (Rectangle α)) : Prop where
  cover : ∀ x y, box.Closed x y → ∃ r ∈ tiles, r.Closed x y
  apart : tiles.Pairwise fun r s => ∀ x y, ¬ (r.Interior x y ∧ s.Interior x y)

variable [DenselyOrdered α]

theorem exists_just_below (l : List α) {low x : α} (above : low < x) :
    ∃ x', low < x' ∧ x' < x ∧ ∀ b ∈ l, b < x → b < x' := by
  induction l with
  | nil =>
    obtain ⟨x', first, last⟩ := exists_between above
    exact ⟨x', first, last, by simp⟩
  | cons b rest ih =>
    obtain ⟨x', first, last, all⟩ := ih
    rcases lt_or_ge b x with below | not
    · obtain ⟨c, beyond, before⟩ := exists_between below
      refine ⟨max x' c, lt_max_of_lt_left first, max_lt last before, fun d mem less => ?_⟩
      rcases List.mem_cons.mp mem with rfl | mem
      · exact lt_max_of_lt_right beyond
      · exact lt_max_of_lt_left (all d mem less)
    · refine ⟨x', first, last, fun d mem less => ?_⟩
      rcases List.mem_cons.mp mem with rfl | mem
      · exact absurd less (not_lt.mpr not)
      · exact all d mem less

variable {box : Rectangle α} {tiles : List (Rectangle α)}

theorem Partition.exists_halfOpen (partition : Partition box tiles) {x y : α}
    (inside : box.HalfOpen x y) : ∃ r ∈ tiles, r.HalfOpen x y := by
  obtain ⟨⟨left, right⟩, top, bottom⟩ := inside
  obtain ⟨x', hx, hx', noX⟩ :=
    exists_just_below (tiles.map Rectangle.left ++ tiles.map Rectangle.right) left
  obtain ⟨y', hy, hy', noY⟩ :=
    exists_just_below (tiles.map Rectangle.top ++ tiles.map Rectangle.bottom) top
  obtain ⟨r, mem, ⟨rLeft, rRight⟩, rTop, rBottom⟩ := partition.cover x' y'
    ⟨⟨hx.le, hx'.le.trans right⟩, hy.le, hy'.le.trans bottom⟩
  -- no side of `r` is between the two points
  refine ⟨r, mem, ⟨rLeft.trans_lt hx', ?_⟩, rTop.trans_lt hy', ?_⟩
  · by_contra short
    exact absurd (noX r.right (by simp [List.mem_map_of_mem mem]) (not_le.mp short))
      (not_lt.mpr rRight)
  · by_contra short
    exact absurd (noY r.bottom (by simp [List.mem_map_of_mem mem]) (not_le.mp short))
      (not_lt.mpr rBottom)

theorem exists_interior {r s : Rectangle α} {x y : α} (first : r.HalfOpen x y)
    (second : s.HalfOpen x y) : ∃ x' y', r.Interior x' y' ∧ s.Interior x' y' := by
  obtain ⟨⟨left, right⟩, top, bottom⟩ := first
  obtain ⟨⟨left', right'⟩, top', bottom'⟩ := second
  obtain ⟨x', afterX, beforeX⟩ := exists_between (max_lt left left')
  obtain ⟨y', afterY, beforeY⟩ := exists_between (max_lt top top')
  exact ⟨x', y', ⟨⟨(le_max_left _ _).trans_lt afterX, beforeX.trans_le right⟩,
      (le_max_left _ _).trans_lt afterY, beforeY.trans_le bottom⟩,
    ⟨(le_max_right _ _).trans_lt afterX, beforeX.trans_le right'⟩,
    (le_max_right _ _).trans_lt afterY, beforeY.trans_le bottom'⟩

theorem Partition.halfOpen_unique (partition : Partition box tiles) {i j : Nat} {r s : Rectangle α}
    (hr : tiles[i]? = some r) (hs : tiles[j]? = some s) {x y : α} (first : r.HalfOpen x y)
    (second : s.HalfOpen x y) : i = j := by
  obtain ⟨iLt, rfl⟩ := List.getElem?_eq_some_iff.mp hr
  obtain ⟨jLt, rfl⟩ := List.getElem?_eq_some_iff.mp hs
  obtain ⟨x', y', one, other⟩ := exists_interior first second
  have apart := List.pairwise_iff_getElem.mp partition.apart
  rcases lt_trichotomy i j with less | same | more
  · exact absurd ⟨one, other⟩ (apart i j iLt jLt less x' y')
  · exact same
  · exact absurd ⟨other, one⟩ (apart j i jLt iLt more x' y')

end HyperionNg.Library.Rectangles
