import HyperionNg.EffectStore
import HyperionNg.Library.Overlay

/-! The effects on offer as the tops of stacks of definitions, one stack for
each name. -/

namespace HyperionNg

open Library Overlay JsonCommands

structure DefinedEffect where
  directory : String
  file : String
  script : String
  args : QJsonObject

namespace EffectSite

variable (site : EffectSite)

def load (canRead : String → Bool) (path : String) (file : String × String) :
    Option (Entry String String DefinedEffect) := do
  let name ← site.paths.entryName path file.1
  if canRead file.1 then
    let (effect, script, args) ← site.definition file.2
    if site.disableList.contains effect then none
    else some ⟨file.1, effect, path, path ++ "/" ++ name, script, args⟩
  else none

def definitions (disk : EffectDisk) : List (Entry String String DefinedEffect) :=
  Overlay.read (site.load disk.canRead) site.efxPathList disk.files

/-- The entry of the list of effects that a definition leads to. -/
def offered (disk : EffectDisk) (e : Entry String String DefinedEffect) : EffectEntry where
  name := e.name
  script := site.scriptPath disk e.held.directory e.held.script
  file := e.held.file
  args := e.held.args

/-- The configured paths name directories, and each another one. -/
structure Apart : Prop where
  named : ∀ path ∈ site.efxPathList, path ≠ ""
  once : Once site.paths.entryName site.efxPathList

variable {site}

theorem load_eq_some {canRead : String → Bool} {path : String} {file : String × String}
    {e : Entry String String DefinedEffect} :
    site.load canRead path file = some e ↔ ∃ name script args effect,
      site.paths.entryName path file.1 = some name ∧ canRead file.1 = true ∧
      site.definition file.2 = some (effect, script, args) ∧
      site.disableList.contains effect = false ∧
      e = ⟨file.1, effect, path, path ++ "/" ++ name, script, args⟩ := by
  constructor
  · intro found
    obtain ⟨name, named, found⟩ := Option.bind_eq_some_iff.mp found
    split_ifs at found with readable
    obtain ⟨⟨effect, script, args⟩, defined, found⟩ := Option.bind_eq_some_iff.mp found
    simp only at found
    split_ifs at found with disabled
    exact ⟨name, script, args, effect, named, readable, defined,
      Bool.eq_false_of_not_eq_true disabled,
      (Option.some.inj found).symm⟩
  · rintro ⟨name, script, args, effect, named, readable, defined, enabled, rfl⟩
    simp only [load, named, readable, defined, Option.bind_eq_bind, Option.bind_some, if_true]
    rw [enabled]
    exact if_neg Bool.false_ne_true

theorem keyed (canRead : String → Bool) : Keyed (site.load canRead) Prod.fst := by
  intro path file e found
  obtain ⟨_, _, _, _, -, -, -, -, rfl⟩ := load_eq_some.mp found
  rfl

theorem Apart.once_load (apart : site.Apart) (canRead : String → Bool) :
    Once (site.load canRead) site.efxPathList := by
  refine apart.once.imp fun {p q} once file listed => ?_
  obtain ⟨e, found⟩ := Option.isSome_iff_exists.mp listed
  obtain ⟨_, _, _, _, named, -, -, -, -⟩ := load_eq_some.mp found
  have unlisted := once file.1 (by rw [named]; rfl)
  rw [load, unlisted]
  rfl

theorem Apart.nodup (apart : site.Apart) (disk : EffectDisk) :
    ((site.definitions disk).map Entry.key).Nodup :=
  nodup_read (keyed _) (apart.once_load _) disk.distinct

theorem lookup_of_mem {files : List (String × String)} (distinct : (files.map Prod.fst).Nodup)
    {file : String × String} (mem : file ∈ files) : files.lookup file.1 = some file.2 := by
  induction files with
  | nil => exact absurd mem List.not_mem_nil
  | cons first rest ih =>
    rw [List.map_cons, List.nodup_cons] at distinct
    rcases List.mem_cons.mp mem with rfl | later
    · exact List.lookup_cons_self
    · have other : file.1 ≠ first.1 := fun same =>
        distinct.1 (same ▸ List.mem_map_of_mem later)
      have differs : (file.1 == first.1) = false := by simpa using other
      rw [← Prod.eta first, List.lookup_cons, differs]
      exact ih distinct.2 later

theorem readAll_of_mem {disk : EffectDisk} {file : String × String} (mem : file ∈ disk.files)
    (canRead : disk.canRead file.1 = true) : disk.readAll file.1 = some file.2 := by
  rw [EffectDisk.readAll, if_pos canRead, lookup_of_mem disk.distinct mem]

theorem loadedEffects_eq (apart : site.Apart) (disk : EffectDisk) :
    site.loadedEffects disk = (site.definitions disk).map (site.offered disk) := by
  rw [loadedEffects, definitions, Overlay.read, List.map_flatMap]
  refine List.flatMap_congr fun path here => ?_
  rw [entryList, List.filterMap_filterMap, List.filter_filterMap, List.map_filterMap]
  refine List.filterMap_congr fun file mem => ?_
  unfold load loadEffectDefinition
  cases named : site.paths.entryName path file.1 with
  | none => rfl
  | some name =>
    have same := site.paths.names path file.1 name (apart.named path here) named
    simp only [Option.bind_some, Option.bind_eq_bind, same]
    cases canRead : disk.canRead file.1 with
    | false => simp [EffectDisk.readAll, canRead]
    | true =>
      rw [readAll_of_mem mem canRead]
      simp only [Option.bind_some, if_true]
      cases site.definition file.2 with
      | none => rfl
      | some found =>
        obtain ⟨effect, script, args⟩ := found
        by_cases disabled : effect ∈ site.disableList
        · simp [Option.filter, disabled]
        · simp [Option.filter, disabled, offered]

theorem of_mem_definitions (apart : site.Apart) {disk : EffectDisk}
    {e : Entry String String DefinedEffect} (mem : e ∈ site.definitions disk) :
    e.held.directory ∈ site.efxPathList ∧ disk.contains e.key = true ∧
      site.paths.absoluteFilePath e.held.file = e.key ∧
      (site.paths.entryName e.held.directory e.key).isSome ∧ disk.canRead e.key = true ∧
      site.disableList.contains e.name = false ∧ ∀ file ∈ disk.files, file.1 = e.key →
        site.load disk.canRead e.held.directory file = some e := by
  obtain ⟨path, here, file, inFiles, found⟩ := mem_read.mp mem
  obtain ⟨entry, _, _, _, named, readable, -, enabled, rfl⟩ := load_eq_some.mp found
  refine ⟨here, ?_, site.paths.names path file.1 entry (apart.named path here) named,
    Option.isSome_of_eq_some named, readable, enabled, fun other also same => ?_⟩
  · exact List.contains_iff_mem.mpr (List.mem_map_of_mem inFiles)
  · obtain rfl := List.inj_on_of_nodup_map disk.distinct also inFiles same
    exact found

variable (before : String → String → Bool) {disk : EffectDisk} {file text : String}

private theorem load_unlisted {canRead : String → Bool} {path : String}
    (unlisted : site.paths.entryName path file = none) :
    site.load canRead path (file, text) = none := by
  rw [load, unlisted]
  rfl

theorem definitions_rewrite (apart : site.Apart) {e new : Entry String String DefinedEffect}
    (mem : e ∈ site.definitions disk) (canWrite : disk.canWrite e.key = true)
    (found : site.load disk.canRead e.held.directory (e.key, text) = some new) :
    site.definitions (disk.write before e.key text) = put new (site.definitions disk) := by
  obtain ⟨here, present, -, listed, -, -, reads⟩ := of_mem_definitions apart mem
  have key : new.key = e.key := keyed _ _ _ _ found
  rw [EffectDisk.write, if_pos canWrite, dif_pos present]
  simp only [definitions, ← key]
  refine read_put (keyed _) fun p there old inFiles same => ?_
  rw [key] at same ⊢
  by_cases directory : p = e.held.directory
  · rw [directory, found, reads old inFiles same]
    rfl
  · have unlisted : site.paths.entryName p e.key = none := by
      by_contra also
      exact directory (apart.once.eq there here (Option.isSome_iff_ne_none.mpr also) listed)
    rw [load_unlisted unlisted, ← Prod.eta old, load_unlisted (same ▸ unlisted)]
    rfl

theorem write_new (text : String) (canWrite : disk.canWrite file = true)
    (absent : disk.contains file = false) :
    ∃ front back, disk.files = front ++ back ∧
      (disk.write before file text).files = front ++ (file, text) :: back ∧
      (disk.write before file text).canRead = disk.canRead := by
  refine ⟨_, _, (List.takeWhile_append_dropWhile (p := fun old => before old.1 file)).symm, ?_⟩
  rw [EffectDisk.write, if_pos canWrite, dif_neg (Bool.eq_false_iff.mp absent)]
  exact ⟨rfl, rfl⟩

theorem definitions_new (text : String) (apart : site.Apart) (canWrite : disk.canWrite file = true)
    (absent : disk.contains file = false) :
    ∃ front back, site.definitions disk = front ++ back ∧
      site.definitions (disk.write before file text) = front ++
        (site.efxPathList.findSome? fun p => site.load disk.canRead p (file, text)).toList ++
          back := by
  obtain ⟨front, back, whole, written, canRead⟩ := write_new before text canWrite absent
  rw [definitions, definitions, whole, written, canRead]
  cases found : site.efxPathList.findSome? fun p => site.load disk.canRead p (file, text) with
  | none =>
    refine ⟨_, [], (List.append_nil _).symm, ?_⟩
    rw [read_insert_none (List.findSome?_eq_none_iff.mp found)]
    simp
  | some e =>
    obtain ⟨p, here, found⟩ := List.exists_of_findSome?_eq_some found
    obtain ⟨first, last, old, new⟩ := read_insert (apart.once_load disk.canRead) here found
    exact ⟨first, last, old, by simpa using new⟩

end EffectSite

/-! The list of effects as a map by names. -/

theorem find?_assignEffect (available : List EffectEntry) (effect : EffectEntry) (n : String) :
    (assignEffect available effect).find? (·.name = n) =
      if effect.name = n then some effect else available.find? (·.name = n) := by
  rw [assignEffect]
  have split := List.takeWhile_append_dropWhile
    (p := fun other : EffectEntry => QString.lessThan other.name effect.name)
    (l := available.filter (·.name ≠ effect.name))
  generalize List.takeWhile _ _ = front at split ⊢
  generalize List.dropWhile _ _ = back at split ⊢
  split_ifs with same
  · subst same
    have absent : front.find? (·.name = effect.name) = none := by
      rw [List.find?_eq_none]
      intro other mem
      have kept : other ∈ available.filter (·.name ≠ effect.name) := by
        rw [← split]
        exact List.mem_append_left _ mem
      simpa using (List.mem_filter.mp kept).2
    rw [List.find?_append, absent]
    simp
  · have skip : (front ++ effect :: back).find? (·.name = n) =
        (front ++ back).find? (·.name = n) := by
      simp [List.find?_append, same]
    rw [skip, split, List.find?_filter]
    congr 1
    funext other
    by_cases here : other.name = n
    · simp [here, Ne.symm same]
    · simp [here]

theorem find?_foldl_assignEffect (effects : List EffectEntry) (n : String) :
    (effects.foldl assignEffect []).find? (·.name = n) =
      (effects.filter (·.name = n)).getLast? := by
  induction effects using List.reverseRecOn with
  | nil => rfl
  | append_singleton effects effect ih =>
    rw [List.foldl_concat, find?_assignEffect, ih, List.filter_append]
    split_ifs with same
    · simp [same]
    · simp [same]

theorem EffectSite.find?_readEffects {site : EffectSite} (apart : site.Apart) (disk : EffectDisk)
    (n : String) : (site.readEffects disk).1.find? (·.name = n) =
      (stack (site.definitions disk) n).getLast?.map (site.offered disk) := by
  rw [readEffects, find?_foldl_assignEffect, loadedEffects_eq apart, List.filter_map,
    List.getLast?_map]
  rfl

end HyperionNg
