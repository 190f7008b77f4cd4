import Mathlib.Tactic

/-! A queue that serves at most one item in each slot. What is served is bounded
by the items that were ready at some slot and the slots behind it, and the
tightest of these bounds is reached. -/

namespace HyperionNg.Library.Backlog

/-- The items served behind `taken` others, given how many have become ready in
all by each slot. -/
def served : Nat → List Nat → Nat
  | taken, [] => taken
  | taken, ready :: later => served (if taken < ready then taken + 1 else taken) later

/-- By every slot at most as many of `n` items are not ready as slots are left. -/
def KeepsUp (n : Nat) (slots : List Nat) : Prop :=
  n ≤ slots.length ∧ ∀ i (h : i < slots.length), n ≤ slots[i] + (slots.length - 1 - i)

theorem le_served (taken : Nat) (slots : List Nat) : taken ≤ served taken slots := by
  induction slots generalizing taken with
  | nil => exact le_rfl
  | cons ready later ih =>
    refine le_trans ?_ (ih _)
    split_ifs
    · exact Nat.le_succ taken
    · exact le_rfl

theorem served_succ (taken : Nat) (slots : List Nat) :
    served (taken + 1) (slots.map (· + 1)) = served taken slots + 1 := by
  induction slots generalizing taken with
  | nil => rfl
  | cons ready later ih =>
    simp only [List.map_cons, served, Nat.add_lt_add_iff_right]
    split_ifs
    · exact ih (taken + 1)
    · exact ih taken

theorem le_served_iff_of_le {n taken : Nat} {slots : List Nat} (sorted : slots.Pairwise (· ≤ ·))
    (below : ∀ ready ∈ slots, taken ≤ ready) :
    n ≤ served taken slots ↔ n ≤ taken + slots.length ∧
      ∀ i (h : i < slots.length), n ≤ slots[i] + (slots.length - 1 - i) := by
  induction slots generalizing taken with
  | nil => simp [served]
  | cons ready later ih =>
    obtain ⟨least, sorted⟩ := List.pairwise_cons.mp sorted
    have here := below ready (by simp)
    have slots : (∀ i (h : i < (ready :: later).length),
        n ≤ (ready :: later)[i] + ((ready :: later).length - 1 - i)) ↔
        n ≤ ready + later.length ∧
          ∀ i (h : i < later.length), n ≤ later[i] + (later.length - 1 - i) := by
      constructor
      · intro all
        refine ⟨all 0 (by simp), fun i hi => ?_⟩
        have slot := all (i + 1) (by simpa using hi)
        simp only [List.length_cons, List.getElem_cons_succ] at slot
        omega
      · rintro ⟨first, others⟩ i hi
        cases i with
        | zero => exact first
        | succ i =>
          have slot := others i (by simpa using hi)
          simp only [List.length_cons, List.getElem_cons_succ]
          omega
    rw [served, slots, List.length_cons]
    split_ifs with next
    · rw [ih sorted fun r hr => le_trans next (least r hr)]
      constructor
      · rintro ⟨length, others⟩
        exact ⟨by omega, by omega, others⟩
      · rintro ⟨length, _, others⟩
        exact ⟨by omega, others⟩
    · rw [ih sorted fun r hr => below r (by simp [hr])]
      constructor
      · rintro ⟨length, others⟩
        exact ⟨by omega, by omega, others⟩
      · rintro ⟨_, first, others⟩
        exact ⟨by omega, others⟩

theorem le_served_iff {n : Nat} {slots : List Nat} (sorted : slots.Pairwise (· ≤ ·)) :
    n ≤ served 0 slots ↔ KeepsUp n slots := by
  rw [le_served_iff_of_le sorted (by simp), Nat.zero_add, KeepsUp]

end HyperionNg.Library.Backlog
