import Mathlib.Data.List.DropRight
import Mathlib.Tactic

/-! A stream cut in pieces, where some elements are blanks. Two cuts of one
stream hold the same elements, so pieces that match the parts of another cut,
blanks around them aside, leave only blanks to the others. -/

namespace HyperionNg.Library.Segments

variable {α : Type} (blank : α → Bool)

def strip (piece : List α) : List α := (piece.dropWhile blank).rdropWhile blank

def solid (piece : List α) : List α := piece.filter fun x => !blank x

variable {blank}

theorem solid_dropWhile (piece : List α) :
    solid blank (piece.dropWhile blank) = solid blank piece := by
  induction piece with
  | nil => rfl
  | cons x rest ih =>
    by_cases h : blank x = true
    · rw [List.dropWhile_cons_of_pos h, ih, solid, solid, List.filter_cons_of_neg (by simp [h])]
    · rw [List.dropWhile_cons_of_neg h]

@[simp] theorem solid_strip (piece : List α) :
    solid blank (strip blank piece) = solid blank piece := by
  have back (l : List α) : solid blank (l.rdropWhile blank) = solid blank l := by
    rw [← List.reverse_inj, List.rdropWhile, solid, solid, ← List.filter_reverse,
      ← List.filter_reverse, List.reverse_reverse]
    exact solid_dropWhile l.reverse
  rw [strip, back, solid_dropWhile]

theorem strip_append {tail : List α} (blanks : ∀ x ∈ tail, blank x = true) (piece : List α) :
    strip blank (piece ++ tail) = strip blank piece := by
  rw [strip, strip, List.dropWhile_append]
  split_ifs with empty
  · have none : tail.dropWhile blank = [] := List.dropWhile_eq_nil_iff.mpr blanks
    rw [none, List.isEmpty_iff.mp empty]
  · rw [List.rdropWhile, List.reverse_append, List.dropWhile_append_of_pos (by simpa using blanks)]
    rfl

theorem strip_cons {x : α} (blanks : blank x = true) (piece : List α) :
    strip blank (x :: piece) = strip blank piece := by
  rw [strip, strip, List.dropWhile_cons_of_pos blanks]

theorem strip_eq_self_iff {piece : List α} : strip blank piece = piece ↔
    (∀ x ∈ piece.head?, blank x = false) ∧ ∀ x ∈ piece.getLast?, blank x = false := by
  constructor
  · intro stripped
    have front : piece.dropWhile blank = piece := by
      refine (List.dropWhile_suffix blank).eq_of_length_le ?_
      calc piece.length = (strip blank piece).length := by rw [stripped]
        _ ≤ (piece.dropWhile blank).length := (List.rdropWhile_prefix blank _).length_le
    rw [strip, front] at stripped
    constructor
    · intro x mem
      obtain ⟨rest, rfl⟩ := List.head?_eq_some_iff.mp mem
      exact Bool.eq_false_of_not_eq_true (List.dropWhile_eq_self_iff.mp front (by simp))
    · intro x mem
      obtain ⟨rest, rfl⟩ := List.getLast?_eq_some_iff.mp mem
      simpa using List.rdropWhile_eq_self_iff.mp stripped (by simp)
  · rintro ⟨front, back⟩
    have first : piece.dropWhile blank = piece := by
      cases piece with
      | nil => rfl
      | cons x rest => exact List.dropWhile_cons_of_neg (by simp [front x rfl])
    rw [strip, first, List.rdropWhile_eq_self_iff]
    intro some
    simp [back _ (List.getLast_mem_getLast? some)]

theorem strip_eq_nil_iff {piece : List α} : strip blank piece = [] ↔ solid blank piece = [] := by
  constructor
  · intro none
    rw [← solid_strip, none]
    rfl
  · intro none
    have all : ∀ x ∈ piece, blank x = true := by simpa [solid, List.filter_eq_nil_iff] using none
    rw [strip, List.dropWhile_eq_nil_iff.mpr all, List.rdropWhile_nil]

private theorem solid_flatten (pieces : List (List α)) :
    solid blank pieces.flatten = (pieces.map (solid blank)).flatten := by
  rw [solid, List.filter_flatten]
  rfl

theorem eq_zero_of_sum_filter {β : Type} {weight : β → Nat} {selected : β → Bool} {l : List β}
    (reached : (l.map weight).sum ≤ ((l.filter selected).map weight).sum) :
    ∀ b ∈ l, selected b = false → weight b = 0 := by
  induction l with
  | nil => nofun
  | cons a rest ih =>
    have part : ((rest.filter selected).map weight).sum ≤ (rest.map weight).sum :=
      (List.filter_sublist.map weight).sum_le_sum fun _ _ => Nat.zero_le _
    intro b mem out
    cases h : selected a with
    | true =>
      rw [List.filter_cons_of_pos h, List.map_cons, List.map_cons, List.sum_cons,
        List.sum_cons] at reached
      rcases List.mem_cons.mp mem with rfl | later
      · exact absurd (h.symm.trans out) nofun
      · exact ih (by omega) b later out
    | false =>
      rw [List.filter_cons_of_neg (by simp [h]), List.map_cons, List.sum_cons] at reached
      rcases List.mem_cons.mp mem with rfl | later
      · omega
      · exact ih (by omega) b later out

theorem strip_eq_nil_of_matches {pieces parts : List (List α)} {selected : List α → Bool}
    (same : pieces.flatten = parts.flatten)
    (matched : (pieces.filter selected).map (strip blank) = parts.map (strip blank)) :
    ∀ piece ∈ pieces, selected piece = false → strip blank piece = [] := by
  have weigh (cut : List (List α)) :
      (cut.map fun piece => (solid blank piece).length).sum = (solid blank cut.flatten).length := by
    rw [solid_flatten, List.length_flatten, List.map_map]
    rfl
  have stripped (cut : List (List α)) : (cut.map fun piece => (solid blank piece).length) =
      (cut.map (strip blank)).map fun piece => (solid blank piece).length := by
    simp
  intro piece mem out
  have reached : (pieces.map fun piece => (solid blank piece).length).sum ≤
      ((pieces.filter selected).map fun piece => (solid blank piece).length).sum := by
    rw [weigh, same, ← weigh, stripped parts, ← matched, ← stripped]
  have empty := eq_zero_of_sum_filter reached piece mem out
  exact strip_eq_nil_iff.mpr (List.length_eq_zero_iff.mp empty)

theorem foldl_eq_of_strip {σ : Type} {f : σ → List α → σ} {pieces parts : List (List α)}
    (skips : ∀ s piece, strip blank piece = [] → f s piece = s)
    (reads : ∀ s piece, ∀ part ∈ parts, strip blank piece = strip blank part →
      f s piece = f s part)
    (oneEach : (pieces.map (strip blank)).filter (· ≠ []) = parts.map (strip blank)) (s : σ) :
    pieces.foldl f s = parts.foldl f s := by
  induction pieces generalizing parts s with
  | nil =>
    obtain rfl := List.map_eq_nil_iff.mp oneEach.symm
    rfl
  | cons piece rest ih =>
    rw [List.map_cons] at oneEach
    by_cases empty : strip blank piece = []
    · rw [List.filter_cons_of_neg (by simpa using empty)] at oneEach
      rw [List.foldl_cons, skips s piece empty]
      exact ih reads oneEach s
    · rw [List.filter_cons_of_pos (by simpa using empty)] at oneEach
      obtain ⟨part, parts, rfl, same, later⟩ := List.map_eq_cons_iff.mp oneEach.symm
      rw [List.foldl_cons, List.foldl_cons, reads s piece part (by simp) same.symm]
      exact ih (fun s piece other mem => reads s piece other (by simp [mem])) later.symm _

end HyperionNg.Library.Segments
