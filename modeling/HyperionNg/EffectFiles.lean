import Mathlib.Data.List.TakeWhile
import Mathlib.Tactic

/-! The file of a new effect: its name, or the first free one that numbering
finds. -/

namespace HyperionNg

/-- Paths longer than `maxLength` are refused by the system. -/
structure FileSystem where
  fileExists : String → Bool
  absoluteFilePath : String → String
  maxLength : Nat
  length_le : ∀ path, fileExists path = true → path.length ≤ maxLength

namespace FileSystem

def baseName (path : String) : String :=
  String.ofList ((path.toList.reverse.takeWhile (· ≠ '/')).reverse.takeWhile (· ≠ '.'))

def numbered (directory path : String) (digit : Nat) : String :=
  directory ++ "/" ++ baseName path ++ String.singleton (Nat.digitChar (digit % 10)) ++ ".json"

theorem baseName_length_le (path : String) : (baseName path).length ≤ path.length := by
  have inner := (List.takeWhile_sublist (· ≠ '.')
    (l := (path.toList.reverse.takeWhile (· ≠ '/')).reverse)).length_le
  have outer := (List.takeWhile_sublist (· ≠ '/') (l := path.toList.reverse)).length_le
  simp only [List.length_reverse, String.length_toList] at inner outer
  rw [baseName, String.length_ofList]
  omega

private theorem takeWhile_stops {α : Type} {p : α → Bool} {l r : List α} {x : α}
    (all : ∀ a ∈ l, p a = true) (stop : p x = false) : (l ++ x :: r).takeWhile p = l := by
  rw [List.takeWhile_append_of_pos all, List.takeWhile_cons_of_neg (by simp [stop]),
    List.append_nil]

theorem mem_baseName {path : String} {c : Char} (mem : c ∈ (baseName path).toList) :
    c ≠ '/' ∧ c ≠ '.' := by
  rw [baseName, String.toList_ofList] at mem
  have component := (List.takeWhile_sublist _).subset mem
  rw [List.mem_reverse] at component
  exact ⟨by simpa using List.mem_takeWhile_imp component,
    by simpa using List.mem_takeWhile_imp mem⟩

private theorem digitChar_ne (digit : Nat) :
    Nat.digitChar (digit % 10) ≠ '/' ∧ Nat.digitChar (digit % 10) ≠ '.' := by
  have below : digit % 10 < 10 := Nat.mod_lt _ (by decide)
  generalize digit % 10 = n at below
  revert n
  decide

private theorem component_eq {directory name : List Char} (plain : ∀ c ∈ name, c ≠ '/') :
    ((directory ++ '/' :: name).reverse.takeWhile (· ≠ '/')).reverse = name := by
  rw [List.reverse_append, List.reverse_cons, List.append_assoc, List.singleton_append,
    takeWhile_stops (by simpa using plain) (by simp), List.reverse_reverse]

theorem baseName_numbered (directory path : String) (digit : Nat) :
    (baseName (numbered directory path digit)).length = (baseName path).length + 1 := by
  have ends : ".json".toList = ['.', 'j', 's', 'o', 'n'] := by decide
  have text : (numbered directory path digit).toList = directory.toList ++ '/' ::
      (((baseName path).toList ++ [Nat.digitChar (digit % 10)]) ++ ['.', 'j', 's', 'o', 'n']) := by
    simp [numbered, ends]
  have stem : ∀ c ∈ (baseName path).toList ++ [Nat.digitChar (digit % 10)],
      c ≠ '/' ∧ c ≠ '.' := by
    intro c mem
    rcases List.mem_append.mp mem with base | last
    · exact mem_baseName base
    · rw [List.mem_singleton.mp last]
      exact digitChar_ne digit
  have tail : ∀ c ∈ ['.', 'j', 's', 'o', 'n'], c ≠ '/' := by simp
  have plain : ∀ c ∈ ((baseName path).toList ++ [Nat.digitChar (digit % 10)]) ++
      ['.', 'j', 's', 'o', 'n'], c ≠ '/' := by
    intro c mem
    rcases List.mem_append.mp mem with name | extension
    · exact (stem c name).1
    · exact tail c extension
  rw [baseName, text, component_eq plain,
    takeWhile_stops (by simpa using fun c mem => (stem c mem).2) (by simp)]
  simp

/-- The loop `while (newFileName.exists())`; every round makes the name longer. -/
def freeFile (files : FileSystem) (directory : String) (qrand : Nat → Nat) (k : Nat)
    (path : String) : String :=
  if files.fileExists path then
    freeFile files directory qrand (k + 1) (numbered directory path (qrand k))
  else path
termination_by files.maxLength + 1 - (baseName path).length
decreasing_by
  have bound := files.length_le path ‹_›
  have shorter := baseName_length_le path
  rw [baseName_numbered]
  omega

theorem freeFile_free (files : FileSystem) (directory : String) (qrand : Nat → Nat) (k : Nat)
    (path : String) : files.fileExists (files.freeFile directory qrand k path) = false := by
  fun_induction freeFile files directory qrand k path with
  | case1 _ _ _ ih => exact ih
  | case2 _ _ free => simpa using free

end FileSystem

end HyperionNg
