import Mathlib.Data.List.Chain
import Mathlib.Data.List.Nodup
import Mathlib.Tactic

/-! A rectangle traversed row by row, each row in the order that `turn` makes of
the row before: the same order, or the reverse. -/

namespace HyperionNg.Library.Raster

variable {α β : Type}

def raster (turn : List α → List α) : List α → List β → List (α × β)
  | _, [] => []
  | xs, y :: ys => xs.map (·, y) ++ raster turn (turn xs) ys

theorem mem_raster {turn : List α → List α} (keeps : ∀ xs x, x ∈ turn xs ↔ x ∈ xs)
    {xs : List α} {ys : List β} {x : α} {y : β} : (x, y) ∈ raster turn xs ys ↔ x ∈ xs ∧ y ∈ ys := by
  induction ys generalizing xs with
  | nil => simp [raster]
  | cons z ys ih =>
    have here : (x, y) ∈ xs.map (·, z) ↔ x ∈ xs ∧ y = z := by simp [eq_comm]
    rw [raster, List.mem_append, ih, keeps, List.mem_cons, here]
    tauto

theorem length_raster {turn : List α → List α} (keeps : ∀ xs, (turn xs).length = xs.length)
    (xs : List α) (ys : List β) : (raster turn xs ys).length = xs.length * ys.length := by
  induction ys generalizing xs with
  | nil => rfl
  | cons y ys ih =>
    rw [raster, List.length_append, ih, keeps, List.length_map, List.length_cons]
    ring

theorem nodup_raster {turn : List α → List α} (keeps : ∀ xs x, x ∈ turn xs ↔ x ∈ xs)
    (distinct : ∀ xs, xs.Nodup → (turn xs).Nodup) {xs : List α} {ys : List β} (hx : xs.Nodup)
    (hy : ys.Nodup) : (raster turn xs ys).Nodup := by
  induction ys generalizing xs with
  | nil => exact .nil
  | cons y ys ih =>
    obtain ⟨fresh, hy⟩ := List.nodup_cons.mp hy
    refine List.Nodup.append (hx.map (Prod.mk_left_injective y)) (ih (distinct xs hx) hy)
      fun cell row later => ?_
    obtain ⟨x, -, rfl⟩ := List.mem_map.mp row
    exact fresh ((mem_raster keeps).mp later).2

theorem head?_raster (turn : List α → List α) {xs : List α} {ys : List β} {x : α} {y : β}
    (hx : xs.head? = some x) (hy : ys.head? = some y) :
    (raster turn xs ys).head? = some (x, y) := by
  obtain ⟨restX, rfl⟩ := List.head?_eq_some_iff.mp hx
  obtain ⟨restY, rfl⟩ := List.head?_eq_some_iff.mp hy
  rfl

theorem isChain_raster_reverse {R : α → α → Prop} {S : β → β → Prop}
    (symm : ∀ a b, R a b → R b a) {xs : List α} {ys : List β} (nonempty : xs ≠ [])
    (hx : xs.IsChain R) (hy : ys.IsChain S) : (raster List.reverse xs ys).IsChain fun a b =>
      R a.1 b.1 ∧ a.2 = b.2 ∨ a.1 = b.1 ∧ S a.2 b.2 := by
  induction ys generalizing xs with
  | nil => exact .nil
  | cons y ys ih =>
    have turned : xs.reverse.IsChain R := by
      rw [List.isChain_reverse]
      exact hx.imp fun a b step => symm a b step
    refine List.isChain_append.mpr ⟨?_, ih (by simpa using nonempty) turned hy.tail,
      fun a last b first => ?_⟩
    · exact (List.isChain_map _).mpr (hx.imp fun a b step => .inl ⟨step, rfl⟩)
    · cases ys with
      | nil => cases first
      | cons z ys =>
        -- the next row starts where this one ends
        have ends : xs.reverse.head? = some (xs.getLast nonempty) := by
          rw [List.head?_reverse, List.getLast?_eq_some_getLast nonempty]
        rw [head?_raster _ ends rfl] at first
        rw [List.getLast?_map, List.getLast?_eq_some_getLast nonempty] at last
        cases first
        cases last
        exact .inr ⟨rfl, hy.rel⟩

theorem filter_raster_id [DecidableEq β] {xs : List α} {ys : List β} (distinct : ys.Nodup) {y : β}
    (mem : y ∈ ys) : ((raster id xs ys).filter fun cell => cell.2 = y).map Prod.fst = xs := by
  induction ys with
  | nil => cases mem
  | cons z ys ih =>
    obtain ⟨fresh, distinct⟩ := List.nodup_cons.mp distinct
    rw [raster, List.filter_append, List.map_append]
    by_cases here : y = z
    · subst here
      have none : (raster id (id xs) ys).filter (fun cell => cell.2 = y) = [] := by
        refine List.filter_eq_nil_iff.mpr fun cell mem => ?_
        have row : cell.2 ∈ ys := ((mem_raster fun _ _ => Iff.rfl).mp mem).2
        simpa using fun same : cell.2 = y => fresh (same ▸ row)
      rw [none]
      simp [List.filter_map, Function.comp_def]
    · rw [id, ih distinct ((List.mem_cons.mp mem).resolve_left here)]
      simp [List.filter_map, Function.comp_def, Ne.symm here]

end HyperionNg.Library.Raster
