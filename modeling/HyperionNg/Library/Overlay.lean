import Mathlib.Data.List.Pairwise
import Mathlib.Data.List.Nodup
import Mathlib.Tactic

/-! Definitions of names, each kept under a key, and read one after the other: of
two with one name the later one counts. What is done to the definition that
counts is done to the top of a stack, and no other name sees it. -/

namespace HyperionNg.Library.Overlay

structure Entry (κ ν α : Type) where
  key : κ
  name : ν
  held : α

variable {κ ν α : Type}

def stack [DecidableEq ν] (entries : List (Entry κ ν α)) (n : ν) : List (Entry κ ν α) :=
  entries.filter (·.name = n)

/-- What is kept under the key of `e` becomes `e`. -/
def put [DecidableEq κ] (e : Entry κ ν α) (entries : List (Entry κ ν α)) : List (Entry κ ν α) :=
  entries.map fun old => if old.key = e.key then e else old

def remove [DecidableEq κ] (k : κ) (entries : List (Entry κ ν α)) : List (Entry κ ν α) :=
  entries.filter (·.key ≠ k)

section Stacks

variable [DecidableEq ν] {entries : List (Entry κ ν α)} {e : Entry κ ν α}

private theorem mem_stack {n : ν} : e ∈ stack entries n ↔ e ∈ entries ∧ e.name = n := by
  simp [stack]

theorem stack_split {n : ν} (top : (stack entries n).getLast? = some e) :
    stack entries n = (stack entries n).dropLast ++ [e] ∧ e ∈ entries ∧ e.name = n := by
  obtain ⟨front, split⟩ := List.getLast?_eq_some_iff.mp top
  have here : e ∈ stack entries n := by
    rw [split]
    exact List.mem_append_right _ (List.mem_singleton_self e)
  refine ⟨?_, mem_stack.mp here⟩
  rw [split, List.dropLast_concat]

theorem key_ne_of_mem_dropLast (distinct : (entries.map Entry.key).Nodup) {n : ν}
    (top : (stack entries n).getLast? = some e) {f : Entry κ ν α}
    (below : f ∈ (stack entries n).dropLast) : f.key ≠ e.key := by
  obtain ⟨split, -, -⟩ := stack_split top
  have keys : ((stack entries n).map Entry.key).Nodup :=
    distinct.sublist (List.filter_sublist.map _)
  rw [split, List.map_append] at keys
  intro same
  refine List.disjoint_of_nodup_append keys (List.mem_map_of_mem below) ?_
  rw [same]
  exact List.mem_singleton_self _

theorem key_ne_of_mem_stack (distinct : (entries.map Entry.key).Nodup) {n m : ν}
    (top : (stack entries n).getLast? = some e) (other : m ≠ n) {f : Entry κ ν α}
    (mem : f ∈ stack entries m) : f.key ≠ e.key := by
  obtain ⟨-, here, name⟩ := stack_split top
  obtain ⟨there, differs⟩ := mem_stack.mp mem
  rintro same
  obtain rfl := List.inj_on_of_nodup_map distinct there here same
  exact other (differs.symm.trans name)

theorem stack_remove [DecidableEq κ] (distinct : (entries.map Entry.key).Nodup) {n : ν}
    (top : (stack entries n).getLast? = some e) :
    stack (remove e.key entries) =
      Function.update (stack entries) n (stack entries n).dropLast := by
  funext m
  have swap : stack (remove e.key entries) m = (stack entries m).filter (·.key ≠ e.key) := by
    rw [stack, stack, remove, List.filter_filter, List.filter_filter]
    exact List.filter_congr fun f _ => Bool.and_comm _ _
  by_cases same : m = n
  · subst same
    rw [swap, Function.update_self]
    nth_rewrite 1 [(stack_split top).1]
    rw [List.filter_append, List.filter_eq_self.mpr, List.filter_eq_nil_iff.mpr, List.append_nil]
    · simp
    · intro f below
      simpa using key_ne_of_mem_dropLast distinct top below
  · rw [swap, Function.update_of_ne same, List.filter_eq_self]
    intro f mem
    simpa using key_ne_of_mem_stack distinct top same mem

theorem stack_put [DecidableEq κ] (distinct : (entries.map Entry.key).Nodup) {old : Entry κ ν α}
    (top : (stack entries e.name).getLast? = some old) (same : e.key = old.key) :
    stack (put e entries) =
      Function.update (stack entries) e.name ((stack entries e.name).dropLast ++ [e]) := by
  have named : ∀ f ∈ entries, (if f.key = e.key then e else f).name = f.name := by
    intro f mem
    split_ifs with here
    · obtain ⟨-, there, name⟩ := stack_split top
      rw [List.inj_on_of_nodup_map distinct mem there (here.trans same), name]
    · rfl
  have swap : ∀ m, stack (put e entries) m = put e (stack entries m) := by
    intro m
    rw [stack, put, List.filter_map, put, stack]
    refine congrArg _ (List.filter_congr fun f mem => ?_)
    simp [named f mem]
  have kept : ∀ l : List (Entry κ ν α), (∀ f ∈ l, f.key ≠ e.key) → put e l = l := by
    intro l all
    rw [put]
    conv_rhs => rw [← List.map_id l]
    exact List.map_congr_left fun f mem => if_neg (all f mem)
  funext m
  rw [swap]
  by_cases here : m = e.name
  · subst here
    rw [Function.update_self]
    nth_rewrite 1 [(stack_split top).1]
    have last : put e [old] = [e] := by simp [put, same]
    have front := kept (stack entries e.name).dropLast fun f below =>
      same ▸ key_ne_of_mem_dropLast distinct top below
    rw [put] at front last ⊢
    rw [List.map_append, front, last]
  · rw [Function.update_of_ne here]
    exact kept _ fun f mem => same ▸ key_ne_of_mem_stack distinct top here mem

theorem stack_insert {front back : List (Entry κ ν α)}
    (unknown : stack (front ++ back) e.name = []) :
    stack (front ++ e :: back) = Function.update (stack (front ++ back)) e.name [e] := by
  rw [stack, List.filter_append, List.append_eq_nil_iff] at unknown
  funext m
  by_cases same : m = e.name
  · subst same
    rw [Function.update_self, stack, List.filter_append, List.filter_cons_of_pos (by simp),
      unknown.1, unknown.2]
    rfl
  · rw [Function.update_of_ne same, stack, stack, List.filter_append, List.filter_append,
      List.filter_cons_of_neg (by simpa using Ne.symm same)]

end Stacks

/-! The definitions as they are read: each path lists some of the files. -/

section Once

variable {π φ β : Type}

def Once (list : π → φ → Option β) (paths : List π) : Prop :=
  paths.Pairwise fun p q => ∀ f, (list p f).isSome → list q f = none

variable {list : π → φ → Option β} {paths : List π}

theorem Once.eq (once : Once list paths) {p q : π} (here : p ∈ paths) (there : q ∈ paths) {f : φ}
    (listed : (list p f).isSome) (also : (list q f).isSome) : p = q := by
  have swap : Std.Symm fun p q => ∀ f, (list p f).isSome → list q f = none := by
    refine ⟨fun p q once f listed => ?_⟩
    by_contra other
    have nothing := once f (Option.isSome_iff_ne_none.mpr other)
    rw [nothing] at listed
    cases listed
  by_contra differs
  have nothing := once.forall here there differs f listed
  rw [nothing] at also
  cases also

theorem Once.findSome?_eq (once : Once list paths) {p : π} (here : p ∈ paths) {f : φ}
    (listed : (list p f).isSome) : paths.findSome? (list · f) = list p f := by
  cases found : paths.findSome? (list · f) with
  | none => exact (List.findSome?_eq_none_iff.mp found p here).symm
  | some b =>
    obtain ⟨q, there, same⟩ := List.exists_of_findSome?_eq_some found
    rw [once.eq here there listed (by rw [same]; rfl), same]

end Once

section Read

variable {π φ : Type} (load : π → φ → Option (Entry κ ν α)) (key : φ → κ)

def read (paths : List π) (files : List φ) : List (Entry κ ν α) :=
  paths.flatMap fun p => files.filterMap (load p)

def Keyed : Prop := ∀ p f e, load p f = some e → e.key = key f

variable {load key} {paths : List π} {files : List φ}

theorem mem_read {e : Entry κ ν α} :
    e ∈ read load paths files ↔ ∃ p ∈ paths, ∃ f ∈ files, load p f = some e := by
  simp [read]

theorem nodup_read (keyed : Keyed load key) (once : Once load paths)
    (distinct : (files.map key).Nodup) : ((read load paths files).map Entry.key).Nodup := by
  have sub : ∀ p, ((files.filterMap (load p)).map Entry.key).Sublist (files.map key) := by
    intro p
    clear distinct
    induction files with
    | nil => exact List.Sublist.refl _
    | cons f rest ih =>
      cases found : load p f with
      | none =>
        rw [List.filterMap_cons_none found]
        exact ih.cons _
      | some e =>
        rw [List.filterMap_cons_some found, List.map_cons, List.map_cons, keyed p f e found]
        exact ih.cons_cons _
  induction paths with
  | nil => exact List.nodup_nil
  | cons p rest ih =>
    obtain ⟨apart, once⟩ := List.pairwise_cons.mp once
    rw [read, List.flatMap_cons, List.map_append]
    refine List.Nodup.append (distinct.sublist (sub p)) (ih once) ?_
    intro k here there
    obtain ⟨e, mem, rfl⟩ := List.mem_map.mp here
    obtain ⟨d, other, same⟩ := List.mem_map.mp there
    obtain ⟨f, inFiles, found⟩ := List.mem_filterMap.mp mem
    obtain ⟨q, later, g, alsoThere, again⟩ := mem_read.mp other
    rw [keyed q g d again, keyed p f e found] at same
    obtain rfl := List.inj_on_of_nodup_map distinct alsoThere inFiles same
    have nothing := apart q later g (by rw [found]; rfl)
    exact Option.some_ne_none _ (again.symm.trans nothing)

theorem read_remove [DecidableEq κ] (keyed : Keyed load key) (k : κ) :
    read load paths (files.filter (key · ≠ k)) = remove k (read load paths files) := by
  rw [read, read, remove, List.filter_flatMap]
  refine List.flatMap_congr fun p _ => ?_
  rw [List.filter_filterMap, List.filterMap_filter]
  refine List.filterMap_congr fun f _ => ?_
  cases found : load p f with
  | none => simp
  | some e => simp [Option.filter, keyed p f e found]

theorem read_put [DecidableEq κ] (keyed : Keyed load key) {e : Entry κ ν α} {new : φ}
    (reads : ∀ p ∈ paths, ∀ f ∈ files, key f = e.key →
      load p new = (load p f).map fun _ => e) :
    read load paths (files.map fun f => if key f = e.key then new else f) =
      put e (read load paths files) := by
  rw [read, read, put, List.map_flatMap]
  refine List.flatMap_congr fun p here => ?_
  rw [List.filterMap_map, List.map_filterMap]
  refine List.filterMap_congr fun f mem => ?_
  change load p (if key f = e.key then new else f) = _
  split_ifs with same
  · rw [reads p here f mem same]
    cases found : load p f with
    | none => rfl
    | some old => simp [keyed p f old found, same]
  · cases found : load p f with
    | none => rfl
    | some old => simp [keyed p f old found, same]

theorem read_insert_none {front back : List φ} {new : φ}
    (unread : ∀ p ∈ paths, load p new = none) :
    read load paths (front ++ new :: back) = read load paths (front ++ back) := by
  refine List.flatMap_congr fun p here => ?_
  rw [List.filterMap_append, List.filterMap_append, List.filterMap_cons_none (unread p here)]

theorem read_insert (once : Once load paths) {front back : List φ} {new : φ}
    {e : Entry κ ν α} {p : π} (here : p ∈ paths) (found : load p new = some e) :
    ∃ before after, read load paths (front ++ back) = before ++ after ∧
      read load paths (front ++ new :: back) = before ++ e :: after := by
  obtain ⟨first, last, rfl⟩ := List.append_of_mem here
  obtain ⟨-, tail, cross⟩ := List.pairwise_append.mp once
  have listed : (load p new).isSome := by rw [found]; rfl
  have ahead : ∀ q ∈ first, load q new = none := by
    intro q mem
    cases other : load q new with
    | none => rfl
    | some d =>
      have nothing := cross q mem p List.mem_cons_self new (by rw [other]; rfl)
      exact absurd (found.symm.trans nothing) (Option.some_ne_none _)
  have behind : ∀ q ∈ last, load q new = none := fun q mem =>
    (List.pairwise_cons.mp tail).1 q mem new listed
  refine ⟨read load first (front ++ back) ++ front.filterMap (load p),
    back.filterMap (load p) ++ read load last (front ++ back), ?_, ?_⟩
  · simp [read]
  · have whole : read load (first ++ p :: last) (front ++ new :: back) =
        read load first (front ++ new :: back) ++ ((front ++ new :: back).filterMap (load p) ++
          read load last (front ++ new :: back)) := by
      simp only [read, List.flatMap_append, List.flatMap_cons]
    rw [whole, read_insert_none ahead, read_insert_none behind, List.filterMap_append,
      List.filterMap_cons_some found]
    simp

end Read

end HyperionNg.Library.Overlay
