import Mathlib.Tactic

/-! A ring of cells as a queue: what stands behind the place it is read from, so
many cells on. -/

namespace HyperionNg.Library.RingBuffer

variable {α : Type} {n : Nat} [NeZero n]

/-- The contents of `count` cells from `first` on. -/
def contents (cells : Fin n → α) (first : Fin n) : Nat → List α
  | 0 => []
  | count + 1 => cells first :: contents cells (first + 1) count

@[simp] theorem length_contents (cells : Fin n → α) (first : Fin n) (count : Nat) :
    (contents cells first count).length = count := by
  induction count generalizing first with
  | zero => rfl
  | succ count ih => rw [contents, List.length_cons, ih]

/-- The place `k` cells behind another one. -/
def behind (first : Fin n) : Nat → Fin n
  | 0 => first
  | k + 1 => behind (first + 1) k

theorem behind_succ (first : Fin n) (k : Nat) : behind first (k + 1) = behind first k + 1 := by
  induction k generalizing first with
  | zero => rfl
  | succ k ih => exact ih (first + 1)

theorem behind_add (first : Fin n) (j k : Nat) :
    behind first (j + k) = behind (behind first j) k := by
  induction j generalizing first with
  | zero => rw [zero_add, behind]
  | succ j ih =>
    rw [Nat.succ_add]
    exact ih (first + 1)

theorem val_behind (first : Fin n) (k : Nat) : (behind first k : Nat) = (first + k) % n := by
  induction k with
  | zero => rw [behind, add_zero, Nat.mod_eq_of_lt first.isLt]
  | succ k ih =>
    rw [behind_succ, Fin.val_add, ih, Fin.val_one', Nat.mod_add_mod, Nat.add_mod_mod, add_assoc]

theorem behind_ne (first : Fin n) {j k : Nat} (less : j < k) (inside : k < n) :
    behind first k ≠ behind first j := by
  intro same
  have values := congrArg Fin.val same
  rw [val_behind, val_behind] at values
  have multiple : n ∣ (first + k) - (first + j) :=
    (Nat.modEq_iff_dvd' (by omega)).mp (show (first + j) % n = (first + k) % n from values.symm)
  have small := Nat.le_of_dvd (by omega) multiple
  omega

theorem contents_append (cells : Fin n → α) (first : Fin n) (j k : Nat) :
    contents cells first (j + k) =
      contents cells first j ++ contents cells (behind first j) k := by
  induction j generalizing first with
  | zero => rw [zero_add, contents, behind, List.nil_append]
  | succ j ih =>
    rw [Nat.succ_add, contents, contents, ih, List.cons_append, behind]

theorem contents_congr {cells others : Fin n → α} {first : Fin n} {count : Nat}
    (same : ∀ k < count, cells (behind first k) = others (behind first k)) :
    contents cells first count = contents others first count := by
  induction count generalizing first with
  | zero => rfl
  | succ count ih =>
    rw [contents, contents]
    exact congrArg₂ List.cons (same 0 (Nat.succ_pos count))
      (ih fun k less => same (k + 1) (Nat.succ_lt_succ less))

theorem contents_update (cells : Fin n → α) (first : Fin n) {count : Nat} (room : count < n)
    (value : α) :
    contents (Function.update cells (behind first count) value) first (count + 1) =
      contents cells first count ++ [value] := by
  rw [contents_append]
  congr 1
  · exact contents_congr fun k less =>
      Function.update_of_ne (behind_ne first less room).symm value cells
  · rw [contents, contents, Function.update_self]

end HyperionNg.Library.RingBuffer
