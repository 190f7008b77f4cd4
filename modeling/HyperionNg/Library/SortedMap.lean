import Mathlib.Data.List.Sort
import Mathlib.Data.List.Nodup
import Mathlib.Order.Bounds.Basic
import Mathlib.Tactic

/-! Finite maps kept as a list of entries in strictly increasing key order.
The order is a field, so equal lookups force equal maps and a traversal in
list order is a traversal in key order. `sweep` is the iterator loop that
erases some entries while it walks over all of them. -/

namespace HyperionNg.Library

/-- One pass of an iterator loop from the entry it points to: `passed` holds
the entries behind the iterator, latest first. Erasing the entry leaves the
iterator on its successor, stepping moves the entry to `passed`. -/
def sweepFrom {κ α β : Type*} (drop : κ × α → Bool) (visit : β → κ × α → β) :
    List (κ × α) → List (κ × α) → β → List (κ × α) × β
  | passed, [], acc => (passed.reverse, acc)
  | passed, e :: rest, acc =>
      if drop e then sweepFrom drop visit passed rest acc
      else sweepFrom drop visit (e :: passed) rest (visit acc e)

theorem sweepFrom_eq {κ α β : Type*} (drop : κ × α → Bool) (visit : β → κ × α → β)
    (passed rest : List (κ × α)) (acc : β) :
    sweepFrom drop visit passed rest acc =
      (passed.reverse ++ rest.filter (fun e => !drop e),
        (rest.filter (fun e => !drop e)).foldl visit acc) := by
  induction rest generalizing passed acc with
  | nil => simp [sweepFrom]
  | cons e rest ih =>
    cases h : drop e with
    | false => simp [sweepFrom, h, ih]
    | true => simp [sweepFrom, h, ih]

structure SortedMap (κ α : Type*) [LinearOrder κ] where
  entries : List (κ × α)
  sorted : entries.Pairwise (fun a b => a.1 < b.1)
deriving DecidableEq

namespace SortedMap

variable {κ α β : Type*} [LinearOrder κ]

def empty : SortedMap κ α := ⟨[], List.Pairwise.nil⟩

def keys (m : SortedMap κ α) : List κ := m.entries.map Prod.fst

def find? (m : SortedMap κ α) (k : κ) : Option α :=
  (m.entries.find? (fun e => e.1 = k)).map Prod.snd

def contains (m : SortedMap κ α) (k : κ) : Bool := (m.find? k).isSome

def filter (m : SortedMap κ α) (keep : κ × α → Bool) : SortedMap κ α :=
  ⟨m.entries.filter keep, m.sorted.filter keep⟩

def erase (m : SortedMap κ α) (k : κ) : SortedMap κ α := m.filter (fun e => e.1 ≠ k)

def insert (m : SortedMap κ α) (k : κ) (v : α) : SortedMap κ α where
  entries := m.entries.filter (fun e => e.1 < k) ++ (k, v) :: m.entries.filter (fun e => k < e.1)
  sorted := by
    refine List.pairwise_append.mpr ⟨m.sorted.filter _, ?_, ?_⟩
    · refine List.pairwise_cons.mpr ⟨fun e he => ?_, m.sorted.filter _⟩
      simpa using (List.mem_filter.mp he).2
    · intro a ha b hb
      have hak : a.1 < k := by simpa using (List.mem_filter.mp ha).2
      rcases List.mem_cons.mp hb with rfl | hb
      · exact hak
      · have hkb : k < b.1 := by simpa using (List.mem_filter.mp hb).2
        exact hak.trans hkb

/-- Insertion that keeps an existing entry, as `std::map::emplace` does. -/
def emplace (m : SortedMap κ α) (k : κ) (v : α) : SortedMap κ α :=
  if m.contains k then m else m.insert k v

theorem keys_nodup (m : SortedMap κ α) : m.keys.Nodup :=
  (List.pairwise_map.mpr m.sorted).imp ne_of_lt

private theorem key_inj (m : SortedMap κ α) {k : κ} {v w : α}
    (hv : (k, v) ∈ m.entries) (hw : (k, w) ∈ m.entries) : v = w :=
  congrArg Prod.snd (List.inj_on_of_nodup_map m.keys_nodup hv hw rfl)

theorem find?_eq_some_iff (m : SortedMap κ α) (k : κ) (v : α) :
    m.find? k = some v ↔ (k, v) ∈ m.entries := by
  constructor
  · intro h
    obtain ⟨⟨k', v'⟩, hf, rfl⟩ := Option.map_eq_some_iff.mp h
    have hk : k' = k := by simpa using List.find?_some hf
    exact hk ▸ List.mem_of_find?_eq_some hf
  · intro h
    cases hf : m.entries.find? (fun e => e.1 = k) with
    | none => simpa using List.find?_eq_none.mp hf (k, v) h
    | some e =>
      obtain ⟨k', v'⟩ := e
      have hk : k' = k := by simpa using List.find?_some hf
      subst hk
      have hv := m.key_inj (List.mem_of_find?_eq_some hf) h
      simp [find?, hf, hv]

theorem contains_iff (m : SortedMap κ α) (k : κ) :
    m.contains k = true ↔ ∃ v, (k, v) ∈ m.entries := by
  simp only [contains, Option.isSome_iff_exists, find?_eq_some_iff]

theorem mem_keys_iff (m : SortedMap κ α) (k : κ) :
    k ∈ m.keys ↔ m.contains k = true := by
  simp [keys, contains_iff]

theorem ext_find? {m n : SortedMap κ α} (h : ∀ k, m.find? k = n.find? k) : m = n := by
  have perm : m.entries.Perm n.entries := by
    refine (List.perm_ext_iff_of_nodup m.keys_nodup.of_map n.keys_nodup.of_map).mpr ?_
    rintro ⟨k, v⟩
    rw [← find?_eq_some_iff, ← find?_eq_some_iff, h]
  have heq : m.entries = n.entries :=
    perm.eq_of_pairwise (fun _ _ _ _ hab hba => (lt_asymm hab hba).elim) m.sorted n.sorted
  cases m
  cases n
  simpa using heq

theorem mem_insert (m : SortedMap κ α) (k : κ) (v : α) (e : κ × α) :
    e ∈ (m.insert k v).entries ↔ e = (k, v) ∨ (e.1 ≠ k ∧ e ∈ m.entries) := by
  simp only [insert, List.mem_append, List.mem_filter, List.mem_cons, decide_eq_true_eq]
  constructor
  · rintro (⟨he, hlt⟩ | rfl | ⟨he, hlt⟩)
    · exact Or.inr ⟨ne_of_lt hlt, he⟩
    · exact Or.inl rfl
    · exact Or.inr ⟨ne_of_gt hlt, he⟩
  · rintro (rfl | ⟨hne, he⟩)
    · exact Or.inr (Or.inl rfl)
    · rcases lt_or_gt_of_ne hne with hlt | hgt
      · exact Or.inl ⟨he, hlt⟩
      · exact Or.inr (Or.inr ⟨he, hgt⟩)

theorem mem_erase (m : SortedMap κ α) (k : κ) (e : κ × α) :
    e ∈ (m.erase k).entries ↔ e.1 ≠ k ∧ e ∈ m.entries := by
  simp [erase, filter, and_comm]

theorem mem_filter (m : SortedMap κ α) (keep : κ × α → Bool) (e : κ × α) :
    e ∈ (m.filter keep).entries ↔ e ∈ m.entries ∧ keep e = true := by
  simp [filter]

@[simp] theorem find?_empty (k : κ) : (empty : SortedMap κ α).find? k = none := rfl

theorem find?_insert (m : SortedMap κ α) (k : κ) (v : α) (j : κ) :
    (m.insert k v).find? j = if j = k then some v else m.find? j := by
  refine Option.ext fun w => ?_
  rw [find?_eq_some_iff, mem_insert]
  split_ifs with h
  · simp [h, eq_comm]
  · simp [h, find?_eq_some_iff]

theorem find?_filter (m : SortedMap κ α) (keep : κ × α → Bool) (j : κ) :
    (m.filter keep).find? j = (m.find? j).filter (fun v => keep (j, v)) := by
  refine Option.ext fun w => ?_
  rw [find?_eq_some_iff, mem_filter, Option.filter_eq_some_iff, find?_eq_some_iff]

theorem find?_erase (m : SortedMap κ α) (k j : κ) :
    (m.erase k).find? j = if j = k then none else m.find? j := by
  refine Option.ext fun w => ?_
  rw [find?_eq_some_iff, mem_erase]
  split_ifs with h
  · simp [h]
  · simp [h, find?_eq_some_iff]

theorem find?_emplace (m : SortedMap κ α) (k : κ) (v : α) (j : κ) :
    (m.emplace k v).find? j = if j = k then some ((m.find? k).getD v) else m.find? j := by
  unfold emplace contains
  cases hk : m.find? k with
  | none => simp [find?_insert]
  | some w =>
    simp only [Option.isSome_some, if_true, Option.getD_some]
    split_ifs with h
    · rw [h, hk]
    · rfl

def set (m : SortedMap κ α) (k : κ) : Option α → SortedMap κ α
  | none => m.erase k
  | some v => m.insert k v

@[simp] theorem find?_set (m : SortedMap κ α) (k : κ) (entry : Option α) :
    (m.set k entry).find? k = entry := by
  cases entry with
  | none => rw [set, find?_erase, if_pos rfl]
  | some v => rw [set, find?_insert, if_pos rfl]

theorem contains_insert (m : SortedMap κ α) (k : κ) (v : α) (j : κ) :
    (m.insert k v).contains j = (decide (j = k) || m.contains j) := by
  unfold contains
  rw [find?_insert]
  by_cases h : j = k <;> simp [h]

theorem contains_erase (m : SortedMap κ α) (k j : κ) :
    (m.erase k).contains j = (decide (j ≠ k) && m.contains j) := by
  unfold contains
  rw [find?_erase]
  by_cases h : j = k <;> simp [h]

theorem erase_insert_of_not_mem (m : SortedMap κ α) {k : κ} (v : α)
    (absent : m.contains k = false) : (m.insert k v).erase k = m := by
  refine ext_find? fun j => ?_
  have hk : m.find? k = none := by simpa [contains] using absent
  rw [find?_erase, find?_insert]
  split_ifs with h
  · rw [h, hk]
  · rfl

theorem filter_filter (m : SortedMap κ α) (p q : κ × α → Bool) :
    (m.filter p).filter q = m.filter (fun e => p e && q e) := by
  simp [filter, List.filter_filter, Bool.and_comm]

theorem filter_eq_self (m : SortedMap κ α) (keep : κ × α → Bool)
    (h : ∀ e ∈ m.entries, keep e = true) : m.filter keep = m := by
  cases m
  simpa [filter] using h

def sweep (m : SortedMap κ α) (drop : κ × α → Bool) (visit : β → κ × α → β) (acc : β) :
    SortedMap κ α × β :=
  (⟨(sweepFrom drop visit [] m.entries acc).1, by
      rw [sweepFrom_eq]
      exact m.sorted.filter _⟩,
    (sweepFrom drop visit [] m.entries acc).2)

theorem sweep_eq (m : SortedMap κ α) (drop : κ × α → Bool) (visit : β → κ × α → β) (acc : β) :
    m.sweep drop visit acc =
      (m.filter (fun e => !drop e), (m.filter (fun e => !drop e)).entries.foldl visit acc) := by
  simp only [sweep, sweepFrom_eq, List.reverse_nil, List.nil_append, filter]

end SortedMap

/-- Folding `min` over a list from a start value gives the least element of
the start value and the visited ones. -/
theorem isLeast_foldl_min {γ κ : Type*} [LinearOrder κ] (f : γ → κ) (l : List γ) (start : κ) :
    IsLeast ({start} ∪ {k | ∃ e ∈ l, f e = k}) (l.foldl (fun cur e => min cur (f e)) start) := by
  induction l generalizing start with
  | nil => simp
  | cons e rest ih =>
    obtain ⟨hmem, hle⟩ := ih (min start (f e))
    constructor
    · rcases hmem with h | ⟨e', he', h⟩
      · rcases min_choice start (f e) with hm | hm
        · exact Or.inl (by simpa [hm] using h)
        · exact Or.inr ⟨e, by simp, by simpa [hm] using h.symm⟩
      · exact Or.inr ⟨e', by simp [he'], h⟩
    · have hstart := hle (Or.inl rfl)
      rintro k (rfl | ⟨e', he', rfl⟩)
      · exact hstart.trans (min_le_left _ _)
      · rcases List.mem_cons.mp he' with rfl | he'
        · exact hstart.trans (min_le_right _ _)
        · exact hle (Or.inr ⟨e', he', rfl⟩)

end HyperionNg.Library
