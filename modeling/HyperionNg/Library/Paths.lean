import Mathlib.Tactic

/-! Paths resolved by their text alone. A path is split at its separator and
walked from a directory, which is the list of the names from the root. Where
it ends is decided by the path on its own: by how many levels it climbs, and
by the names it then goes down. -/

namespace HyperionNg.Library.Paths

variable {α : Type} [DecidableEq α] (separator dot : α)

def components : List α → List (List α)
  | [] => [[]]
  | c :: rest =>
    if c = separator then [] :: components rest
    else match components rest with
      | [] => [[c]]
      | first :: others => (c :: first) :: others

theorem components_ne_nil (path : List α) : components separator path ≠ [] := by
  induction path with
  | nil => simp [components]
  | cons c rest ih =>
    rw [components]
    split_ifs
    · simp
    · split <;> simp

theorem components_append (front rest : List α) :
    components separator (front ++ separator :: rest) =
      components separator front ++ components separator rest := by
  induction front with
  | nil => simp [components]
  | cons c front ih =>
    rw [List.cons_append, components, components]
    split_ifs with cut
    · rw [ih, List.cons_append]
    · rw [ih]
      cases parts : components separator front with
      | nil => exact absurd parts (components_ne_nil separator front)
      | cons first others => rfl

theorem isInfix_of_mem_components {name path : List α} (mem : name ∈ components separator path) :
    name <:+: path := by
  suffices pieces : (∀ name ∈ components separator path, name <:+: path) ∧
      ∀ first ∈ (components separator path).head?, first <+: path from pieces.1 name mem
  clear mem
  induction path with
  | nil => simp [components]
  | cons c rest ih =>
    obtain ⟨infixes, front⟩ := ih
    rw [components]
    split_ifs with cut
    · refine ⟨fun name mem => ?_, by simp⟩
      rcases List.mem_cons.mp mem with rfl | later
      · exact List.nil_infix
      · exact (infixes name later).trans (List.suffix_cons c rest).isInfix
    · cases parts : components separator rest with
      | nil => exact absurd parts (components_ne_nil separator rest)
      | cons first others =>
        rw [parts] at infixes front
        have first_prefix : (c :: first) <+: c :: rest := by
          simpa using front first rfl
        refine ⟨fun name mem => ?_, by simpa using first_prefix⟩
        rcases List.mem_cons.mp mem with rfl | later
        · exact first_prefix.isInfix
        · exact (infixes name (List.mem_cons_of_mem _ later)).trans
            (List.suffix_cons c rest).isInfix

def walk (directory : List (List α)) (name : List α) : List (List α) :=
  if name = [] ∨ name = [dot] then directory
  else if name = [dot, dot] then directory.dropLast
  else directory ++ [name]

def resolve (directory : List (List α)) (path : List α) : List (List α) :=
  (components separator path).foldl (walk dot) directory

theorem resolve_append (directory : List (List α)) (front rest : List α) :
    resolve separator dot directory (front ++ separator :: rest) =
      resolve separator dot (resolve separator dot directory front) rest := by
  rw [resolve, components_append, List.foldl_append]
  rfl

structure Relative (α : Type) where
  climbs : Nat
  names : List (List α)
deriving DecidableEq

namespace Relative

def walk (r : Relative α) (name : List α) : Relative α :=
  if name = [] ∨ name = [dot] then r
  else if name = [dot, dot] then
    if r.names = [] then { r with climbs := r.climbs + 1 }
    else { r with names := r.names.dropLast }
  else { r with names := r.names ++ [name] }

def apply (r : Relative α) (directory : List (List α)) : List (List α) :=
  directory.take (directory.length - r.climbs) ++ r.names

theorem apply_walk (r : Relative α) (name : List α) (directory : List (List α)) :
    (r.walk dot name).apply directory = Paths.walk dot (r.apply directory) name := by
  unfold walk Paths.walk
  split_ifs with stay parent level
  · rfl
  · rw [apply, apply, level, List.append_nil, List.append_nil, List.dropLast_eq_take,
      List.take_take, List.length_take]
    congr 1
    dsimp only
    omega
  · rw [apply, apply, List.dropLast_append_of_ne_nil level]
  · rw [apply, apply, List.append_assoc]

omit [DecidableEq α] in
theorem prefix_apply_iff (r : Relative α) (directory : List (List α)) :
    directory <+: r.apply directory ↔
      directory.drop (directory.length - r.climbs) <+: r.names := by
  have parted : directory <+: r.apply directory ↔
      directory.take (directory.length - r.climbs) ++
          directory.drop (directory.length - r.climbs) <+:
        directory.take (directory.length - r.climbs) ++ r.names := by
    rw [List.take_append_drop, apply]
  exact parted.trans (List.prefix_append_right_inj _)

end Relative

def reduce (path : List α) : Relative α :=
  (components separator path).foldl (Relative.walk dot) ⟨0, []⟩

theorem resolve_eq (directory : List (List α)) (path : List α) :
    resolve separator dot directory path = (reduce separator dot path).apply directory := by
  have fold : ∀ (names : List (List α)) (r : Relative α),
      (names.foldl (Relative.walk dot) r).apply directory =
        names.foldl (walk dot) (r.apply directory) := by
    intro names
    induction names with
    | nil => exact fun _ => rfl
    | cons name names ih =>
      intro r
      rw [List.foldl_cons, List.foldl_cons, ih, Relative.apply_walk]
  rw [reduce, fold, resolve]
  congr 1
  simp [Relative.apply]

theorem climbs_eq_zero {path : List α} (absent : [dot, dot] ∉ components separator path) :
    (reduce separator dot path).climbs = 0 := by
  have fold : ∀ (names : List (List α)) (r : Relative α), [dot, dot] ∉ names →
      (names.foldl (Relative.walk dot) r).climbs = r.climbs := by
    intro names
    induction names with
    | nil => exact fun _ _ => rfl
    | cons name names ih =>
      intro r absent
      obtain ⟨here, later⟩ := not_or.mp (List.mem_cons.not.mp absent)
      rw [List.foldl_cons, ih _ later, Relative.walk, if_neg (Ne.symm here)]
      split_ifs <;> rfl
  exact fold _ _ absent

end HyperionNg.Library.Paths
