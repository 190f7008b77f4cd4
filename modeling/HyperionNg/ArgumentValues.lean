import HyperionNg.ArgumentOwnership
import Mathlib.Data.List.TakeWhile

/-! The values that the objects of an effect's arguments stand for. A number
beyond `int` becomes 0, a text ends at its first zero character, and an element
of an array is gone unless the interpreter shares its object. -/

namespace HyperionNg

open Library.RefCount Library.Execution

def PyHeap.Holds (h : PyHeap) (p : Nat) (contents : PyContents) : Prop :=
  ∃ object, h.get p = some object ∧ object.contents = contents

def PyScalar.number : PyScalar → Option ℚ
  | .float d => some d
  | .int n => some n
  | .none => Option.none
  | .str _ => Option.none

namespace Effect

mutual

/-- The object at an address denotes a value: a number has its numeric value, a
dictionary its keys in any order. -/
def Denotes (h : PyHeap) : Json → Nat → Prop
  | .null, p => h.Holds p (.scalar .none)
  | .bool b, p => h.Holds p (.scalar (.int (if b then 1 else 0)))
  | .double d, p => ∃ scalar, h.Holds p (.scalar scalar) ∧ scalar.number = some d
  | .string s, p => h.Holds p (.scalar (.str s.toList))
  | .array items, p => ∃ slots, h.Holds p (.list slots) ∧ DenotesItems h items slots
  | .object members, p => ∃ entries, h.Holds p (.dict entries) ∧
      (entries.map Prod.fst).Perm (members.map fun member => member.1.toList) ∧
      DenotesMembers h members entries

def DenotesItems (h : PyHeap) : List Json → List (Option Nat) → Prop
  | [], slots => slots = []
  | value :: rest, slots => ∃ q others, slots = some q :: others ∧ Denotes h value q ∧
      DenotesItems h rest others

def DenotesMembers (h : PyHeap) : QJsonObject → List (List Char × Nat) → Prop
  | [], _ => True
  | (key, value) :: rest, entries =>
    (∃ q, entries.lookup key.toList = some q ∧ Denotes h value q) ∧ DenotesMembers h rest entries

end

def scalarOf : Json → Option PyScalar
  | .null => some .none
  | .bool b => some (.int (if b then 1 else 0))
  | .double d => some (if d.den ≠ 1 then .float d else .int ((Json.double d).toInt 0))
  | .string s => some (.str (cStr s))
  | .array _ => none
  | .object _ => none

/-- The object the interpreter shares for a value. -/
def sharedFor (shared : PyShared) (value : Json) : Option Nat := (scalarOf value).bind shared

mutual

/-- Whole numbers are in the range of `int`, texts and keys have no zero
character, and the elements of arrays are values the interpreter shares. -/
def Representable (shared : PyShared) : Json → Prop
  | .null => True
  | .bool _ => True
  | .double d => d.den = 1 → -2 ^ 31 ≤ d.num ∧ d.num < 2 ^ 31
  | .string s => '\x00' ∉ s.toList
  | .array items => RepresentableItems shared items
  | .object members => RepresentableMembers shared members

def RepresentableItems (shared : PyShared) : List Json → Prop
  | [] => True
  | value :: rest => ((sharedFor shared value).isSome ∧ Representable shared value) ∧
      RepresentableItems shared rest

def RepresentableMembers (shared : PyShared) : QJsonObject → Prop
  | [] => True
  | (key, value) :: rest => ('\x00' ∉ key.toList ∧ Representable shared value) ∧
      RepresentableMembers shared rest

end

mutual

/-- The keys of an object are distinct, as those of every `QJsonObject` are. -/
def KeysDistinct : Json → Prop
  | .array items => ItemKeysDistinct items
  | .object members => (members.map Prod.fst).Nodup ∧ MemberKeysDistinct members
  | .null => True
  | .bool _ => True
  | .double _ => True
  | .string _ => True

def ItemKeysDistinct : List Json → Prop
  | [] => True
  | value :: rest => KeysDistinct value ∧ ItemKeysDistinct rest

def MemberKeysDistinct : QJsonObject → Prop
  | [] => True
  | (_, value) :: rest => KeysDistinct value ∧ MemberKeysDistinct rest

end

theorem json2python_scalar {value : Json} {scalar : PyScalar} (is : scalarOf value = some scalar)
    (shared : PyShared) (h : PyHeap) :
    json2python shared value h = Py_BuildValue shared scalar h := by
  cases value with
  | null | bool | string =>
    cases is
    rfl
  | double d =>
    obtain rfl := Option.some.inj is
    unfold json2python
    split_ifs <;> rfl
  | array items => cases is
  | object members => cases is

theorem cStr_eq_iff {text : String} : cStr text = text.toList ↔ '\x00' ∉ text.toList := by
  rw [cStr, List.takeWhile_eq_self_iff]
  constructor
  · intro all mem
    exact absurd (all _ mem) (by decide)
  · intro without c mem
    exact decide_eq_true fun same => without (same ▸ mem)

theorem denotes_scalar_iff {shared : PyShared} {h : PyHeap} {value : Json} {scalar : PyScalar}
    (is : scalarOf value = some scalar) {p : Nat} (holds : h.Holds p (.scalar scalar)) :
    Denotes h value p ↔ Representable shared value := by
  obtain ⟨object, found, contents⟩ := holds
  have only : ∀ other, h.Holds p other ↔ other = .scalar scalar := by
    intro other
    constructor
    · rintro ⟨object', found', rfl⟩
      obtain rfl := Option.some.inj (found.symm.trans found')
      exact contents
    · intro same
      exact ⟨object, found, contents.trans same.symm⟩
  cases value with
  | null =>
    cases is
    simp [Denotes, Representable, only]
  | bool b =>
    cases is
    simp [Denotes, Representable, only]
  | double d =>
    obtain rfl := Option.some.inj is
    simp only [Denotes, Representable, only, PyContents.scalar.injEq, exists_eq_left, Json.toInt]
    by_cases whole : d.den = 1
    · have value : (d.num : ℚ) = d := Rat.coe_int_num_of_den_eq_one whole
      simp only [whole, ne_eq, not_true_eq_false, if_false, PyScalar.number, true_and,
        true_imp_iff, Option.some.injEq]
      split_ifs with fits
      · exact iff_of_true value fits
      · refine iff_of_false (fun zero => fits ?_) fits
        have none : d.num = 0 := by
          rw [← zero]
          rfl
        rw [none]
        norm_num
    · simp [whole, PyScalar.number]
  | string s =>
    cases is
    simp [Denotes, Representable, only, ← cStr_eq_iff, eq_comm]
  | array items => cases is
  | object members => cases is

/-! What a conversion leaves of the heap before, whether its result is right or not. -/

/-- Old addresses but one hold nothing new, those from `base` on get no new
reference, and a new object has one. -/
structure Shrinks (base except : Nat) (h next : PyHeap) : Prop where
  size : h.size ≤ next.size
  contents : ∀ q < h.size, q ≠ except → ∀ contents, next.Holds q contents → h.Holds q contents
  counts : ∀ q < h.size, base ≤ q → next.refcount q ≤ h.refcount q
  single : ∀ q, h.size ≤ q → next.refcount q ≤ 1

theorem holds_of_keeps {base : Nat} {h next : PyHeap} (keeps : Heap.Keeps base h next) {q : Nat}
    (below : q < base) {contents : PyContents} (holds : next.Holds q contents) :
    h.Holds q contents := by
  obtain ⟨object, found, is⟩ := holds
  obtain ⟨old, before, same⟩ := keeps.contents q below object found
  exact ⟨old, before, same.trans is⟩

theorem Shrinks.refl {base except : Nat} {h : PyHeap} : Shrinks base except h h where
  size := le_rfl
  contents _ _ _ _ holds := holds
  counts _ _ _ := le_rfl
  single q above := by
    rw [Heap.refcount, Heap.get_of_size_le above]
    exact Nat.zero_le _

theorem Shrinks.trans {base except : Nat} {h next last : PyHeap} (inside : base ≤ h.size)
    (first : Shrinks base except h next) (second : Shrinks base except next last) :
    Shrinks base except h last where
  size := first.size.trans second.size
  contents q below differs contents holds :=
    first.contents q below differs contents
      (second.contents q (lt_of_lt_of_le below first.size) differs contents holds)
  counts q below above :=
    (second.counts q (lt_of_lt_of_le below first.size) above).trans (first.counts q below above)
  single q above := by
    rcases lt_or_ge q next.size with older | newer
    · exact (second.counts q older (inside.trans above)).trans (first.single q above)
    · exact second.single q newer

theorem Shrinks.weaken {base : Nat} {h next : PyHeap} (shrinks : Shrinks base h.size h next)
    (except : Nat) : Shrinks base except h next :=
  ⟨shrinks.size, fun q here _ => shrinks.contents q here here.ne, shrinks.counts, shrinks.single⟩

section Frame

variable {shared : PyShared} {base : Nat}

theorem alloc_shrinks {h : PyHeap} {contents : PyContents} {except : Nat} :
    Shrinks base except h (h.alloc contents) where
  size := by simp
  contents q here _ _ := holds_of_keeps (Heap.keeps_alloc h _) here
  counts q here _ := by
    rw [Heap.refcount_alloc, if_neg here.ne]
    exact le_rfl
  single q above := by
    rw [Heap.refcount_alloc, Heap.refcount, Heap.get_of_size_le above]
    split_ifs <;> simp

theorem buildValue_shrinks (below : ∀ value p, shared value = some p → p < base)
    {value : PyScalar} {h next : PyHeap} {p : Nat} (inside : base ≤ h.size)
    (ok : Py_BuildValue shared value h = .ok (next, p)) :
    Shrinks base h.size h next ∧ p < next.size ∧
      (shared value = some p ∨ shared value = none ∧ p = h.size) := by
  unfold Py_BuildValue at ok
  split at ok
  · next held same =>
    obtain ⟨_, up, done⟩ := bind_eq_ok.mp ok
    cases done
    obtain ⟨keeps, size⟩ := Heap.keeps_incref up h.size
    have old := below value p same
    refine ⟨⟨size.ge, fun q here _ _ => holds_of_keeps keeps here, fun q _ above => ?_,
      fun q above => ?_⟩, size ▸ old.trans_le inside, Or.inl same⟩
    · rw [Heap.refcount_incref up, if_neg (by omega)]
      exact le_rfl
    · rw [Heap.refcount, Heap.get_of_size_le (size ▸ above)]
      exact Nat.zero_le _
  · next none =>
    cases ok
    exact ⟨alloc_shrinks, by simp, Or.inr ⟨none, rfl⟩⟩

theorem keeps_decref {h next : PyHeap} {item : Option Nat} (ok : Py_XDECREF h item = .ok next)
    (b : Nat) : Heap.Keeps b h next := by
  cases item with
  | none =>
    cases ok
    exact .refl b h
  | some p => exact Heap.keeps_release _ ok b

theorem holds_of_update {h : PyHeap} {p q : Nat} (other : q ≠ p) {object : Object PyContents}
    {new contents : PyContents} (holds : PyHeap.Holds (h.update p object new) q contents) :
    h.Holds q contents := by
  obtain ⟨held, found, is⟩ := holds
  rw [Heap.update, Heap.get_set_of_ne h other] at found
  exact ⟨held, found, is⟩

theorem holds_update_self {h : PyHeap} {p : Nat} {object : Object PyContents}
    (found : h.get p = some object) (new : PyContents) :
    PyHeap.Holds (h.update p object new) p new := by
  refine ⟨{ object with contents := new }, ?_, rfl⟩
  rw [Heap.update, Heap.get_set_self (Heap.lt_size_of_get found)]

theorem Holds.unique {h : PyHeap} {p : Nat} {first second : PyContents} (one : h.Holds p first)
    (other : h.Holds p second) : first = second := by
  obtain ⟨object, found, rfl⟩ := one
  obtain ⟨object', found', rfl⟩ := other
  rw [Option.some.inj (found.symm.trans found')]

theorem setItemString_holds {h next : PyHeap} {dict item : Nat} {key : List Char}
    (ok : PyDict_SetItemString h dict key item = .ok next) {q : Nat} {contents : PyContents}
    (holds : next.Holds q contents) :
    (q ≠ dict → h.Holds q contents) ∧ (q = dict → ∀ entries, contents = .dict entries →
      ∃ before, h.Holds dict (.dict before) ∧
        entries = (key, item) :: before.eraseP fun entry => entry.1 = key) := by
  unfold PyDict_SetItemString at ok
  split at ok
  · cases ok
  · next object found =>
    split at ok
    · next before is =>
      obtain ⟨increased, up, down⟩ := bind_eq_ok.mp ok
      have updated := holds_of_keeps (Heap.keeps_incref up (q + 1)).1 (Nat.lt_succ_self q)
        (holds_of_keeps (keeps_decref down (q + 1)) (Nat.lt_succ_self q) holds)
      refine ⟨fun other => holds_of_update other updated, ?_⟩
      rintro rfl entries rfl
      have same := Holds.unique updated (holds_update_self found _)
      exact ⟨before, ⟨object, found, is⟩, PyContents.dict.inj same⟩
    · next not =>
      cases ok
      refine ⟨fun _ => holds, ?_⟩
      rintro rfl entries rfl
      obtain ⟨object', found', is⟩ := holds
      obtain rfl := Option.some.inj (found.symm.trans found')
      exact absurd is (not entries)

theorem setItem_holds {h next : PyHeap} {list index item : Nat}
    (ok : PyList_SetItem h list index item = .ok next) {q : Nat} {contents : PyContents}
    (holds : next.Holds q contents) :
    (q ≠ list → h.Holds q contents) ∧ (q = list → ∀ slots, contents = .list slots →
      ∃ before, h.Holds list (.list before) ∧ slots = before.set index (some item)) := by
  unfold PyList_SetItem at ok
  split at ok
  · cases ok
  · next object found =>
    split at ok
    · next before is =>
      split_ifs at ok with inside
      · have updated := holds_of_keeps (keeps_decref ok (q + 1)) (Nat.lt_succ_self q) holds
        refine ⟨fun other => holds_of_update other updated, ?_⟩
        rintro rfl slots rfl
        have same := Holds.unique updated (holds_update_self found _)
        exact ⟨before, ⟨object, found, is⟩, PyContents.list.inj same⟩
      · have kept := holds_of_keeps (keeps_decref ok (q + 1)) (Nat.lt_succ_self q) holds
        refine ⟨fun _ => kept, ?_⟩
        rintro rfl slots rfl
        refine ⟨slots, kept, (List.set_eq_of_length_le ?_).symm⟩
        obtain rfl := PyContents.list.inj (Holds.unique kept ⟨object, found, is⟩)
        exact not_lt.mp inside
    · next not =>
      have kept := holds_of_keeps (keeps_decref ok (q + 1)) (Nat.lt_succ_self q) holds
      refine ⟨fun _ => kept, ?_⟩
      rintro rfl slots rfl
      obtain ⟨object', found', is⟩ := kept
      obtain rfl := Option.some.inj (found.symm.trans found')
      exact absurd is (not slots)

theorem setItem_size_counts {h next : PyHeap} {list index item : Nat}
    (ok : PyList_SetItem h list index item = .ok next) :
    h.size ≤ next.size ∧ ∀ q, next.refcount q ≤ h.refcount q := by
  have given : ∀ {next : PyHeap} {freed : Option Nat}, Py_XDECREF h freed = .ok next →
      h.size ≤ next.size ∧ ∀ q, next.refcount q ≤ h.refcount q := fun down =>
    ⟨(keeps_decref down 0).size, fun q => (Nat.le_add_right _ _).trans (refcount_decref down q)⟩
  unfold PyList_SetItem at ok
  split at ok
  · cases ok
  · next object found =>
    split at ok
    · split_ifs at ok
      · refine ⟨(Heap.size_set _ _ _).ge.trans (keeps_decref ok 0).size, fun q => ?_⟩
        exact (Nat.le_add_right _ _).trans ((refcount_decref ok q).trans
          (Heap.refcount_update found _ q).le)
      · exact given ok
    · exact given ok

theorem size_setItemString {h next : PyHeap} {dict item : Nat} {key : List Char}
    (ok : PyDict_SetItemString h dict key item = .ok next) : h.size ≤ next.size := by
  unfold PyDict_SetItemString at ok
  split at ok
  · cases ok
  · split at ok
    · obtain ⟨increased, up, down⟩ := bind_eq_ok.mp ok
      have grown := (keeps_decref down 0).size
      rwa [(Heap.keeps_incref up 0).2, Heap.update, Heap.size_set] at grown
    · cases ok
      exact le_rfl

theorem shrinks_of_counts {h next : PyHeap} {except : Nat} (size : h.size ≤ next.size)
    (contents : ∀ q ≠ except, ∀ contents, next.Holds q contents → h.Holds q contents)
    (counts : ∀ q, next.refcount q ≤ h.refcount q) : Shrinks base except h next where
  size := size
  contents q _ := contents q
  counts q _ _ := counts q
  single q above := by
    have none := counts q
    rw [Heap.refcount, Heap.refcount, Heap.get_of_size_le above, Option.elim_none] at none
    rw [Heap.refcount]
    omega

variable (base) in
theorem storeMember_shrinks {h stored next : PyHeap} {dict item : Nat} {key : List Char}
    (first : PyDict_SetItemString h dict key item = .ok stored)
    (second : Py_XDECREF stored (some item) = .ok next) : Shrinks base dict h next := by
  have keeps := fun b => keeps_decref second b
  refine shrinks_of_counts ((size_setItemString first).trans (keeps 0).size)
    (fun q other contents holds => ?_) fun q => ?_
  · exact (setItemString_holds first
      (holds_of_keeps (keeps (q + 1)) (Nat.lt_succ_self q) holds)).1 other
  · have more := refcount_setItemString first q
    have less := refcount_decref second q
    rw [Option.toList_some, List.count_singleton] at less
    simp only [beq_iff_eq, eq_comm (a := item)] at less
    omega

variable (base) in
theorem storeItem_shrinks {h stored next : PyHeap} {list index item : Nat}
    (first : PyList_SetItem h list index item = .ok stored)
    (second : Py_XDECREF stored (some item) = .ok next) :
    Shrinks base list h next ∧ next.refcount item + 1 ≤ h.refcount item := by
  have keeps := fun b => keeps_decref second b
  obtain ⟨size, counts⟩ := setItem_size_counts first
  refine ⟨shrinks_of_counts (size.trans (keeps 0).size) (fun q other contents holds => ?_)
    fun q => ?_, ?_⟩
  · exact (setItem_holds first
      (holds_of_keeps (keeps (q + 1)) (Nat.lt_succ_self q) holds)).1 other
  · exact ((Nat.le_add_right _ _).trans (refcount_decref second q)).trans (counts q)
  · have less := refcount_decref second item
    rw [Option.toList_some, List.count_singleton_self] at less
    exact less.trans (counts item)

def Placed (shared : PyShared) (h next : PyHeap) (value : Json) (p : Nat) : Prop :=
  p < next.size ∧
    (sharedFor shared value = some p ∨ sharedFor shared value = none ∧ p = h.size)

mutual

theorem json2python_shrinks (below : ∀ value p, shared value = some p → p < base) :
    ∀ (value : Json) {h next : PyHeap} {p : Nat}, base ≤ h.size →
    json2python shared value h = .ok (next, p) →
    Shrinks base h.size h next ∧ Placed shared h next value p
  | .null, _, _, _, inside, ok => buildValue_shrinks below inside ok
  | .bool _, _, _, _, inside, ok => buildValue_shrinks below inside ok
  | .string _, _, _, _, inside, ok => buildValue_shrinks below inside ok
  | .double d, h, _, _, inside, ok => by
    rw [json2python_scalar rfl] at ok
    exact buildValue_shrinks below inside ok
  | .object objectData, h, next, p, inside, ok => by
    obtain ⟨filled, members, done⟩ := bind_eq_ok.mp ok
    obtain ⟨rfl, rfl⟩ := Prod.mk.inj (pure_eq_ok.mp done)
    have filled := setMembers_shrinks below objectData (by simp; omega) members
    refine ⟨alloc_shrinks.trans inside filled, ?_, Or.inr ⟨rfl, rfl⟩⟩
    exact lt_of_lt_of_le (by simp) filled.size
  | .array arrayData, h, next, p, inside, ok => by
    obtain ⟨filled, items, done⟩ := bind_eq_ok.mp ok
    obtain ⟨rfl, rfl⟩ := Prod.mk.inj (pure_eq_ok.mp done)
    have filled := setItems_shrinks below arrayData (by simp; omega) items
    refine ⟨alloc_shrinks.trans inside filled, ?_, Or.inr ⟨rfl, rfl⟩⟩
    exact lt_of_lt_of_le (by simp) filled.size

theorem setMembers_shrinks (below : ∀ value p, shared value = some p → p < base) {dict : Nat} :
    ∀ (objectData : QJsonObject) {h next : PyHeap}, base ≤ h.size →
    setMembers shared dict objectData h = .ok next → Shrinks base dict h next
  | [], _, _, _, ok => by
    cases ok
    exact .refl
  | (key, value) :: rest, h, next, inside, ok => by
    obtain ⟨⟨built, obj⟩, first, ok⟩ := bind_eq_ok.mp ok
    obtain ⟨stored, second, ok⟩ := bind_eq_ok.mp ok
    obtain ⟨given, third, ok⟩ := bind_eq_ok.mp ok
    have converted := (json2python_shrinks below value inside first).1
    have kept := storeMember_shrinks base second third
    have later := setMembers_shrinks below rest (inside.trans (converted.size.trans kept.size)) ok
    exact ((converted.weaken dict).trans inside kept).trans inside later

theorem setItems_shrinks (below : ∀ value p, shared value = some p → p < base) {list : Nat} :
    ∀ {index : Nat} (arrayData : List Json) {h next : PyHeap}, base ≤ h.size →
    setItems shared list index arrayData h = .ok next → Shrinks base list h next
  | _, [], _, _, _, ok => by
    cases ok
    exact .refl
  | index, value :: rest, h, next, inside, ok => by
    obtain ⟨⟨built, obj⟩, first, ok⟩ := bind_eq_ok.mp ok
    obtain ⟨stored, second, ok⟩ := bind_eq_ok.mp ok
    obtain ⟨given, third, ok⟩ := bind_eq_ok.mp ok
    have converted := (json2python_shrinks below value inside first).1
    have kept := (storeItem_shrinks base second third).1
    have later := setItems_shrinks below rest (inside.trans (converted.size.trans kept.size)) ok
    exact ((converted.weaken list).trans inside kept).trans inside later

end

/-! What a result that denotes its value says about the value. -/

/-- A heap after further steps, of which the addresses from `low` on and the
shared ones are looked at. -/
structure Later (base low : Nat) (next last : PyHeap) : Prop where
  contents : ∀ q < next.size, q < base ∨ low ≤ q → ∀ contents, last.Holds q contents →
    next.Holds q contents
  counts : ∀ q < next.size, low ≤ q → last.refcount q ≤ next.refcount q

theorem Later.weaken {low high : Nat} {next last : PyHeap} (later : Later base low next last)
    (le : low ≤ high) : Later base high next last where
  contents q here seen := later.contents q here (seen.imp_right le.trans)
  counts q here seen := later.counts q here (le.trans seen)

private theorem alloc_new (h : PyHeap) (contents : PyContents) :
    Shrinks base h.size h (h.alloc contents) := alloc_shrinks

theorem Shrinks.later {except low high : Nat} {h next last : PyHeap}
    (shrinks : Shrinks base except h next) (later : Later base low next last) (le : low ≤ high)
    (above : base ≤ high) (outside : base ≤ except ∧ except < high) :
    Later base high h last where
  contents q here seen contents holds := by
    have old := lt_of_lt_of_le here shrinks.size
    exact shrinks.contents q here (by omega) contents
      (later.contents q old (by omega) contents holds)
  counts q here seen :=
    (later.counts q (lt_of_lt_of_le here shrinks.size) (le.trans seen)).trans
      (shrinks.counts q here (above.trans seen))

/-- The shared objects lie below `base` and hold, as long as they are there, what
they are shared for. -/
structure Faithful (shared : PyShared) (base : Nat) (h : PyHeap) : Prop where
  below : ∀ value p, shared value = some p → p < base
  holds : ∀ value p, shared value = some p → ∀ contents, h.Holds p contents →
    contents = .scalar value
  inside : base ≤ h.size

theorem Faithful.shrinks {except : Nat} {h next : PyHeap} (faithful : Faithful shared base h)
    (shrinks : Shrinks base except h next) (above : base ≤ except) :
    Faithful shared base next where
  below := faithful.below
  holds value p same contents holds := by
    have old := faithful.below value p same
    exact faithful.holds value p same contents
      (shrinks.contents p (old.trans_le faithful.inside) (by omega) contents holds)
  inside := faithful.inside.trans shrinks.size

theorem buildValue_holds {value : PyScalar} {h next : PyHeap} {p : Nat}
    (faithful : Faithful shared base h) (ok : Py_BuildValue shared value h = .ok (next, p))
    {contents : PyContents} (holds : next.Holds p contents) : contents = .scalar value := by
  have shrinks := buildValue_shrinks faithful.below faithful.inside ok
  obtain ⟨shrinks, -, same | ⟨none, rfl⟩⟩ := shrinks
  · exact (faithful.shrinks shrinks faithful.inside).holds value p same contents holds
  · rw [Py_BuildValue, none] at ok
    cases ok
    exact Holds.unique holds ⟨_, Heap.get_alloc_self h _, rfl⟩

theorem Denotes.holds {h : PyHeap} {value : Json} {p : Nat} (denotes : Denotes h value p) :
    ∃ contents, h.Holds p contents := by
  cases value with
  | null | bool | string => exact ⟨_, denotes⟩
  | double d =>
    obtain ⟨scalar, holds, -⟩ := denotes
    exact ⟨_, holds⟩
  | array items =>
    obtain ⟨slots, holds, -⟩ := denotes
    exact ⟨_, holds⟩
  | object members =>
    obtain ⟨entries, holds, -⟩ := denotes
    exact ⟨_, holds⟩

theorem Placed.seen {h next : PyHeap} {value : Json} {p : Nat}
    (placed : Placed shared h next value p) (below : ∀ value p, shared value = some p → p < base) :
    p < base ∨ h.size ≤ p := by
  obtain ⟨-, same | ⟨-, rfl⟩⟩ := placed
  · obtain ⟨scalar, -, same⟩ := Option.bind_eq_some_iff.mp same
    exact Or.inl (below scalar p same)
  · exact Or.inr le_rfl

theorem scalar_representable {value : Json} {scalar : PyScalar} (is : scalarOf value = some scalar)
    {h next last : PyHeap} {p : Nat} (faithful : Faithful shared base h)
    (ok : json2python shared value h = .ok (next, p)) (later : Later base h.size next last)
    (denotes : Denotes last value p) : Representable shared value := by
  obtain ⟨contents, holds⟩ := denotes.holds
  have placed := (json2python_shrinks faithful.below value faithful.inside ok).2
  have before := later.contents p placed.1 (placed.seen faithful.below) contents holds
  rw [json2python_scalar is] at ok
  obtain rfl := buildValue_holds faithful ok before
  exact (denotes_scalar_iff is holds).mp denotes

theorem setItems_slots (below : ∀ value p, shared value = some p → p < base) {list : Nat}
    {items : List Json} {index : Nat} {h next : PyHeap} (base_le : base ≤ h.size)
    (inside : list < h.size) (ok : setItems shared list index items h = .ok next)
    {slots : List (Option Nat)} (holds : next.Holds list (.list slots)) :
    ∃ before, h.Holds list (.list before) ∧ before.length = slots.length ∧
      ∀ i < index, slots[i]? = before[i]? := by
  induction items generalizing index h with
  | nil =>
    cases ok
    exact ⟨slots, holds, rfl, fun _ _ => rfl⟩
  | cons value rest ih =>
    obtain ⟨⟨built, obj⟩, first, ok⟩ := bind_eq_ok.mp ok
    obtain ⟨stored, second, ok⟩ := bind_eq_ok.mp ok
    obtain ⟨given, third, ok⟩ := bind_eq_ok.mp ok
    have converted := (json2python_shrinks below value base_le first).1
    have kept := (storeItem_shrinks base second third).1
    have size := converted.size.trans kept.size
    obtain ⟨after, holdsAfter, length, same⟩ := ih (base_le.trans size) (inside.trans_le size) ok
    have holdsStored :=
      holds_of_keeps (keeps_decref third (list + 1)) (Nat.lt_succ_self _) holdsAfter
    obtain ⟨before, holdsBefore, rfl⟩ := (setItem_holds second holdsStored).2 rfl after rfl
    refine ⟨before, converted.contents list inside inside.ne _ holdsBefore, ?_, fun i small => ?_⟩
    · rw [← length, List.length_set]
    · rw [same i (by omega), List.getElem?_set_ne (by omega)]

theorem lookup_cons_of_ne {key other : List Char} (differs : key ≠ other) (q : Nat)
    (entries : List (List Char × Nat)) :
    ((other, q) :: entries).lookup key = entries.lookup key := by
  have same : (key == other) = false := by simpa using differs
  rw [List.lookup_cons, same]

theorem lookup_eraseP_of_ne {key other : List Char} (differs : key ≠ other)
    (entries : List (List Char × Nat)) :
    (entries.eraseP fun entry => entry.1 = other).lookup key = entries.lookup key := by
  induction entries with
  | nil => rfl
  | cons entry rest ih =>
    obtain ⟨name, q⟩ := entry
    by_cases here : name = other
    · subst here
      rw [List.eraseP_cons_of_pos (by simp), lookup_cons_of_ne differs]
    · rw [List.eraseP_cons_of_neg (by simpa using here)]
      rcases eq_or_ne key name with rfl | apart
      · simp
      · rw [lookup_cons_of_ne apart, lookup_cons_of_ne apart, ih]

theorem setMembers_entries (below : ∀ value p, shared value = some p → p < base) {dict : Nat}
    {members : QJsonObject} {h next : PyHeap} (base_le : base ≤ h.size) (inside : dict < h.size)
    (ok : setMembers shared dict members h = .ok next) {entries : List (List Char × Nat)}
    (holds : next.Holds dict (.dict entries)) :
    ∃ before, h.Holds dict (.dict before) ∧
      ∀ key, (∀ member ∈ members, cStr member.1 ≠ key) →
        entries.lookup key = before.lookup key := by
  induction members generalizing h with
  | nil =>
    cases ok
    exact ⟨entries, holds, fun _ _ => rfl⟩
  | cons member rest ih =>
    obtain ⟨name, value⟩ := member
    obtain ⟨⟨built, obj⟩, first, ok⟩ := bind_eq_ok.mp ok
    obtain ⟨stored, second, ok⟩ := bind_eq_ok.mp ok
    obtain ⟨given, third, ok⟩ := bind_eq_ok.mp ok
    have converted := (json2python_shrinks below value base_le first).1
    have kept := storeMember_shrinks base second third
    have size := converted.size.trans kept.size
    obtain ⟨after, holdsAfter, same⟩ := ih (base_le.trans size) (inside.trans_le size) ok
    have holdsStored :=
      holds_of_keeps (keeps_decref third (dict + 1)) (Nat.lt_succ_self _) holdsAfter
    obtain ⟨before, holdsBefore, rfl⟩ := (setItemString_holds second holdsStored).2 rfl after rfl
    refine ⟨before, converted.contents dict inside inside.ne _ holdsBefore, fun key none => ?_⟩
    have differs : key ≠ cStr name := (none (name, value) List.mem_cons_self).symm
    rw [same key fun member mem => none member (List.mem_cons_of_mem _ mem),
      lookup_cons_of_ne differs, lookup_eraseP_of_ne differs]

private theorem zero_not_mem_cStr (text : String) : '\x00' ∉ cStr text := by
  intro mem
  exact absurd (List.mem_takeWhile_imp mem) (by decide)

theorem zero_not_mem_of_lookup {members : QJsonObject} {entries : List (List Char × Nat)}
    (from_members : ∀ key, (∀ member ∈ members, cStr member.1 ≠ key) → entries.lookup key = none)
    {key : List Char} {q : Nat} (found : entries.lookup key = some q) : '\x00' ∉ key := by
  have stored : ∃ member ∈ members, cStr member.1 = key := by
    by_contra none
    push Not at none
    rw [from_members key none] at found
    cases found
  obtain ⟨member, -, rfl⟩ := stored
  exact zero_not_mem_cStr member.1

theorem DenotesMembers.found {h : PyHeap} {members : QJsonObject}
    {entries : List (List Char × Nat)} (denotes : DenotesMembers h members entries) :
    ∀ member ∈ members, ∃ q, entries.lookup member.1.toList = some q := by
  induction members with
  | nil => simp
  | cons first rest ih =>
    intro member mem
    rcases List.mem_cons.mp mem with rfl | later
    · exact denotes.1.imp fun q both => both.1
    · exact ih denotes.2 member later

variable {last : PyHeap}

mutual

theorem representable_of_denotes : ∀ (value : Json) {h next : PyHeap} {p : Nat},
    Faithful shared base h → KeysDistinct value →
    json2python shared value h = .ok (next, p) → Later base h.size next last →
    Denotes last value p → Representable shared value
  | .null, _, _, _, faithful, _, ok, later, denotes =>
    scalar_representable rfl faithful ok later denotes
  | .bool _, _, _, _, faithful, _, ok, later, denotes =>
    scalar_representable rfl faithful ok later denotes
  | .double _, _, _, _, faithful, _, ok, later, denotes =>
    scalar_representable rfl faithful ok later denotes
  | .string _, _, _, _, faithful, _, ok, later, denotes =>
    scalar_representable rfl faithful ok later denotes
  | .array items, h, next, p, faithful, distinct, ok, later, denotes => by
    obtain ⟨filled, stored, done⟩ := bind_eq_ok.mp ok
    obtain ⟨rfl, rfl⟩ := Prod.mk.inj (pure_eq_ok.mp done)
    obtain ⟨slots, holds, found⟩ := denotes
    have faithfulNew := faithful.shrinks (alloc_new h (.list (List.replicate items.length none)))
      faithful.inside
    have size := (setItems_shrinks faithful.below items faithfulNew.inside stored).size
    have inside : h.size < filled.size := lt_of_lt_of_le (by simp) size
    exact items_representable items faithfulNew faithful.inside (by simp) distinct stored
      (later.contents h.size inside (Or.inr le_rfl) _ holds) (later.weaken (Nat.le_succ _)) found
  | .object members, h, next, p, faithful, distinct, ok, later, denotes => by
    obtain ⟨filled, stored, done⟩ := bind_eq_ok.mp ok
    obtain ⟨rfl, rfl⟩ := Prod.mk.inj (pure_eq_ok.mp done)
    obtain ⟨entries, holds, -, found⟩ := denotes
    have faithfulNew := faithful.shrinks (alloc_new h (.dict [])) faithful.inside
    have size := (setMembers_shrinks faithful.below members faithfulNew.inside stored).size
    have inside : h.size < filled.size := lt_of_lt_of_le (by simp) size
    have holdsFilled := later.contents h.size inside (Or.inr le_rfl) _ holds
    obtain ⟨before, holdsNew, same⟩ := setMembers_entries faithful.below faithfulNew.inside
      (show h.size < _ by simp) stored holdsFilled
    obtain rfl := PyContents.dict.inj (Holds.unique holdsNew ⟨_, Heap.get_alloc_self h _, rfl⟩)
    refine members_representable members faithfulNew faithful.inside (by simp) distinct.1
      distinct.2 (fun member mem => ?_) stored holdsFilled (later.weaken (Nat.le_succ _)) found
    obtain ⟨q, here⟩ := found.found member mem
    exact zero_not_mem_of_lookup same here

theorem items_representable {list : Nat} : ∀ (items : List Json) {index : Nat} {h next : PyHeap}
    {slots : List (Option Nat)}, Faithful shared base h → base ≤ list → list < h.size →
    ItemKeysDistinct items → setItems shared list index items h = .ok next →
    next.Holds list (.list slots) → Later base (list + 1) next last →
    DenotesItems last items (slots.drop index) → RepresentableItems shared items
  | [], _, _, _, _, _, _, _, _, _, _, _, _ => trivial
  | value :: rest, index, h, next, slots, faithful, above, inside, distinct, ok, holds, later,
      denotes => by
    obtain ⟨⟨built, obj⟩, first, ok⟩ := bind_eq_ok.mp ok
    obtain ⟨stored, second, ok⟩ := bind_eq_ok.mp ok
    obtain ⟨given, third, ok⟩ := bind_eq_ok.mp ok
    obtain ⟨q, others, here, denotesHere, denotesLater⟩ := denotes
    obtain ⟨converted, placed⟩ := json2python_shrinks faithful.below value faithful.inside first
    obtain ⟨kept, freed⟩ := storeItem_shrinks base second third
    have faithfulBuilt := faithful.shrinks converted faithful.inside
    have faithfulGiven := faithfulBuilt.shrinks kept above
    have insideGiven := inside.trans_le (converted.size.trans kept.size)
    have filled := setItems_shrinks faithful.below rest faithfulGiven.inside ok
    have after := (kept.trans faithfulBuilt.inside filled).later later
      (Nat.succ_le_of_lt inside) faithful.inside ⟨above, inside⟩
    -- the slot holds the object of this element
    obtain rfl : obj = q := by
      obtain ⟨between, holdsGiven, -, same⟩ :=
        setItems_slots faithful.below faithfulGiven.inside insideGiven ok holds
      have holdsStored :=
        holds_of_keeps (keeps_decref third (list + 1)) (Nat.lt_succ_self _) holdsGiven
      obtain ⟨before, -, rfl⟩ := (setItem_holds second holdsStored).2 rfl between rfl
      have slot : slots[index]? = some (some q) := by
        rw [← Nat.add_zero index, ← List.getElem?_drop, here]
        rfl
      rw [same index (Nat.lt_succ_self index), List.getElem?_set, if_pos rfl] at slot
      split_ifs at slot
      exact Option.some.inj (Option.some.inj slot)
    refine ⟨⟨?_, representable_of_denotes value faithful distinct.1 first after denotesHere⟩,
      items_representable rest faithfulGiven above insideGiven distinct.2 ok holds later ?_⟩
    · -- an object of its own is gone once its only reference was given up
      rcases placed.2 with shared | ⟨-, rfl⟩
      · rw [shared]
        rfl
      · obtain ⟨contents, object, alive, -⟩ := denotesHere.holds
        have there : 0 < last.refcount h.size := by
          rw [Heap.refcount, alive]
          exact object.positive
        have thereGiven := placed.1.trans_le kept.size
        have one := converted.single h.size le_rfl
        have fewer := filled.counts h.size thereGiven faithful.inside
        have fewest := later.counts h.size (thereGiven.trans_le filled.size)
          (Nat.succ_le_of_lt inside)
        omega
    · rwa [← List.drop_drop, here, List.drop_one, List.tail_cons]

theorem members_representable {dict : Nat} : ∀ (members : QJsonObject) {h next : PyHeap}
    {entries : List (List Char × Nat)}, Faithful shared base h → base ≤ dict → dict < h.size →
    (members.map Prod.fst).Nodup → MemberKeysDistinct members →
    (∀ member ∈ members, '\x00' ∉ member.1.toList) →
    setMembers shared dict members h = .ok next →
    next.Holds dict (.dict entries) → Later base (dict + 1) next last →
    DenotesMembers last members entries → RepresentableMembers shared members
  | [], _, _, _, _, _, _, _, _, _, _, _, _, _ => trivial
  | (key, value) :: rest, h, next, entries, faithful, above, inside, distinct, valuesDistinct,
      clean, ok, holds, later, denotes => by
    obtain ⟨⟨built, obj⟩, first, ok⟩ := bind_eq_ok.mp ok
    obtain ⟨stored, second, ok⟩ := bind_eq_ok.mp ok
    obtain ⟨given, third, ok⟩ := bind_eq_ok.mp ok
    obtain ⟨⟨q, here, denotesHere⟩, denotesLater⟩ := denotes
    obtain ⟨converted, placed⟩ := json2python_shrinks faithful.below value faithful.inside first
    have kept := storeMember_shrinks base second third
    have faithfulBuilt := faithful.shrinks converted faithful.inside
    have faithfulGiven := faithfulBuilt.shrinks kept above
    have insideGiven := inside.trans_le (converted.size.trans kept.size)
    have filled := setMembers_shrinks faithful.below rest faithfulGiven.inside ok
    have after := (kept.trans faithfulBuilt.inside filled).later later
      (Nat.succ_le_of_lt inside) faithful.inside ⟨above, inside⟩
    obtain ⟨fresh, distinct⟩ := List.nodup_cons.mp distinct
    have cleanHere := clean (key, value) List.mem_cons_self
    have cleanLater := fun member mem => clean member (List.mem_cons_of_mem _ mem)
    -- no later member has this key, so that the entry is the object of this one
    obtain rfl : obj = q := by
      obtain ⟨between, holdsGiven, same⟩ :=
        setMembers_entries faithful.below faithfulGiven.inside insideGiven ok holds
      have holdsStored :=
        holds_of_keeps (keeps_decref third (dict + 1)) (Nat.lt_succ_self _) holdsGiven
      obtain ⟨before, -, rfl⟩ := (setItemString_holds second holdsStored).2 rfl between rfl
      rw [same key.toList fun member mem equal => ?_, cStr_eq_iff.mpr cleanHere,
        List.lookup_cons_self] at here
      · exact Option.some.inj here
      · rw [cStr_eq_iff.mpr (cleanLater member mem)] at equal
        exact fresh (List.mem_map.mpr ⟨member, mem, String.toList_injective equal⟩)
    exact ⟨⟨cleanHere, representable_of_denotes value faithful valuesDistinct.1 first after
      denotesHere⟩, members_representable rest faithfulGiven above insideGiven distinct
      valuesDistinct.2 cleanLater ok holds later denotesLater⟩

end

end Frame

/-! What the conversion of a representable value gives. -/

structure Grows (except : Nat) (h next : PyHeap) : Prop where
  size : h.size ≤ next.size
  holds : ∀ q ≠ except, ∀ contents, h.Holds q contents → next.Holds q contents

theorem Grows.trans {except : Nat} {h next last : PyHeap} (first : Grows except h next)
    (second : Grows except next last) : Grows except h last where
  size := first.size.trans second.size
  holds q other contents holds := second.holds q other contents (first.holds q other contents holds)

theorem Holds.lt_size {h : PyHeap} {p : Nat} {contents : PyContents} (holds : h.Holds p contents) :
    p < h.size := by
  obtain ⟨object, found, -⟩ := holds
  exact Heap.lt_size_of_get found

theorem Grows.weaken {h next : PyHeap} (grows : Grows h.size h next) (except : Nat) :
    Grows except h next :=
  ⟨grows.size, fun q _ contents holds => grows.holds q (Holds.lt_size holds).ne contents holds⟩

theorem alloc_grows (h : PyHeap) (contents : PyContents) :
    Grows h.size h (h.alloc contents) where
  size := by simp
  holds q _ contents holds := by
    obtain ⟨object, found, is⟩ := holds
    exact ⟨object, (Heap.get_alloc_of_lt (Heap.lt_size_of_get found) _).trans found, is⟩

theorem set_grows {h : PyHeap} {p : Nat} {object new : Object PyContents}
    (found : h.get p = some object) (same : new.contents = object.contents) (except : Nat) :
    Grows except h (h.set p (some new)) where
  size := (Heap.size_set _ _ _).ge
  holds q _ contents holds := by
    obtain ⟨held, here, is⟩ := holds
    rcases eq_or_ne q p with rfl | other
    · obtain rfl := Option.some.inj (found.symm.trans here)
      exact ⟨new, Heap.get_set_self (Heap.lt_size_of_get found) _, same.trans is⟩
    · exact ⟨held, (Heap.get_set_of_ne h other _).trans here, is⟩

theorem update_grows (h : PyHeap) (p : Nat) (object : Object PyContents) (contents : PyContents) :
    Grows p h (h.update p object contents) where
  size := (Heap.size_set _ _ _).ge
  holds q other _ holds := by
    obtain ⟨held, here, is⟩ := holds
    exact ⟨held, (Heap.get_set_of_ne h other _).trans here, is⟩

theorem incref_grows {h : PyHeap} {p : Nat} {object : Object PyContents}
    (found : h.get p = some object) :
    ∃ next : PyHeap, h.incref p = .ok next ∧ (∀ except, Grows except h next) ∧
      2 ≤ next.refcount p := by
  obtain ⟨next, up⟩ : ∃ next, h.incref p = .ok next := by
    rw [Heap.incref, found]
    exact ⟨_, rfl⟩
  refine ⟨next, up, ?_, ?_⟩
  · have done := up
    rw [Heap.incref, found] at done
    cases done
    exact set_grows found (by rfl)
  · rw [Heap.refcount_incref up, if_pos rfl, Heap.refcount, found]
    exact Nat.succ_le_succ object.positive

theorem decref_grows {h : PyHeap} {p : Nat} (many : 2 ≤ h.refcount p) :
    ∃ next, Py_XDECREF h (some p) = .ok next ∧ ∀ except, Grows except h next := by
  cases found : h.get p with
  | none =>
    rw [Heap.refcount, found] at many
    exact absurd many (by simp)
  | some object =>
    rw [Heap.refcount, found] at many
    have many : 1 < object.refcount := many
    have total := Heap.total_set found none
    obtain ⟨fuel, enough⟩ : ∃ fuel, h.total = fuel + 1 :=
      Nat.exists_eq_succ_of_ne_zero (by simp only [Option.elim_none] at total; omega)
    refine ⟨h.set p (some { object with
      refcount := object.refcount - 1, positive := Nat.sub_pos_of_lt many }), ?_,
      set_grows found (by rfl)⟩
    rw [Py_XDECREF, Heap.decref, enough, Heap.release, found]
    simp only [dif_pos many]
    cases fuel <;> rfl

theorem storeMember_grows {h : PyHeap} {dict item : Nat} {key : List Char}
    {entries : List (List Char × Nat)} (holds : h.Holds dict (.dict entries))
    (fresh : entries.lookup key = none) {contents : PyContents} (alive : h.Holds item contents)
    (other : item ≠ dict) :
    ∃ stored next, PyDict_SetItemString h dict key item = .ok stored ∧
      Py_XDECREF stored (some item) = .ok next ∧
      next.Holds dict (.dict ((key, item) :: entries)) ∧ Grows dict h next := by
  obtain ⟨object, found, is⟩ := holds
  obtain ⟨held, here, -⟩ := alive
  have none : entries.eraseP (fun entry => entry.1 = key) = entries := by
    refine List.eraseP_of_forall_not fun entry mem same => ?_
    have absent := List.lookup_eq_none_iff.mp fresh entry mem
    simp_all
  obtain ⟨updated, hupdated⟩ : ∃ updated : PyHeap,
      updated = h.update dict object (.dict ((key, item) :: entries)) := ⟨_, rfl⟩
  have alive : updated.get item = some held := by
    rw [hupdated, Heap.update, Heap.get_set_of_ne h other]
    exact here
  obtain ⟨stored, up, grownUp, many⟩ := incref_grows alive
  obtain ⟨next, down, grownDown⟩ := decref_grows many
  refine ⟨stored, next, ?_, down, ?_, ?_⟩
  · rw [PyDict_SetItemString, found]
    simp only [is, none, fresh]
    exact bind_eq_ok.mpr ⟨stored, hupdated ▸ up, rfl⟩
  · refine ((grownUp updated.size).trans (grownDown _)).holds dict ?_ _ ?_
    · rw [hupdated, Heap.update, Heap.size_set]
      exact (Heap.lt_size_of_get found).ne
    · rw [hupdated]
      exact holds_update_self found _
  · exact ((hupdated ▸ update_grows h dict object _).trans (grownUp dict)).trans (grownDown dict)

theorem storeItem_grows {h : PyHeap} {list index item : Nat} {slots : List (Option Nat)}
    (holds : h.Holds list (.list slots)) (empty : slots[index]? = some none)
    (many : 2 ≤ h.refcount item) :
    ∃ stored next, PyList_SetItem h list index item = .ok stored ∧
      Py_XDECREF stored (some item) = .ok next ∧
      next.Holds list (.list (slots.set index (some item))) ∧ Grows list h next := by
  obtain ⟨object, found, is⟩ := holds
  have inside : index < slots.length := (List.getElem?_eq_some_iff.mp empty).1
  obtain ⟨stored, hstored⟩ : ∃ stored : PyHeap,
      stored = h.update list object (.list (slots.set index (some item))) := ⟨_, rfl⟩
  have manyStored : 2 ≤ stored.refcount item := by
    rw [hstored, Heap.refcount_update found]
    exact many
  obtain ⟨next, down, grownDown⟩ := decref_grows manyStored
  refine ⟨stored, next, ?_, down, ?_, (hstored ▸ update_grows h list object _).trans
    (grownDown list)⟩
  · rw [PyList_SetItem, found]
    simp only [is, if_pos inside, empty, Option.join_some, Py_XDECREF, hstored]
  · refine (grownDown stored.size).holds list ?_ _ ?_
    · rw [hstored, Heap.update, Heap.size_set]
      exact (Heap.lt_size_of_get found).ne
    · rw [hstored]
      exact holds_update_self found _

section Built

variable {shared : PyShared} {base : Nat}

/-- The shared objects lie below `base` and hold what they are shared for. -/
structure Ready (shared : PyShared) (base : Nat) (h : PyHeap) : Prop where
  below : ∀ value p, shared value = some p → p < base
  holds : ∀ value p, shared value = some p → h.Holds p (.scalar value)
  inside : base ≤ h.size

theorem Ready.grows {except : Nat} {h next : PyHeap} (ready : Ready shared base h)
    (grows : Grows except h next) (above : base ≤ except) : Ready shared base next where
  below := ready.below
  holds value p same := by
    have old := ready.below value p same
    exact grows.holds p (by omega) _ (ready.holds value p same)
  inside := ready.inside.trans grows.size

def Survives (base low : Nat) (next last : PyHeap) : Prop :=
  ∀ q, q < base ∨ low ≤ q → ∀ contents, next.Holds q contents → last.Holds q contents

theorem Grows.survives {except low high : Nat} {h next last : PyHeap} (grows : Grows except h next)
    (survives : Survives base low next last) (le : low ≤ high)
    (outside : base ≤ except ∧ except < high) : Survives base high h last := by
  intro q seen contents holds
  exact survives q (seen.imp_right le.trans) contents (grows.holds q (by omega) contents holds)

structure Built (shared : PyShared) (base : Nat) (value : Json) (h next : PyHeap) (p : Nat) :
    Prop where
  grows : Grows h.size h next
  alive : ∃ contents, next.Holds p contents
  many : (sharedFor shared value).isSome → 2 ≤ next.refcount p
  denotes : ∀ last, Survives base h.size next last → Denotes last value p

theorem buildValue_built {value : Json} {scalar : PyScalar} (is : scalarOf value = some scalar)
    (representable : Representable shared value) {h : PyHeap} (ready : Ready shared base h) :
    ∃ next p, json2python shared value h = .ok (next, p) ∧ Built shared base value h next p := by
  rw [json2python_scalar is, Py_BuildValue]
  cases same : shared scalar with
  | some p =>
    obtain ⟨object, found, held⟩ := ready.holds scalar p same
    obtain ⟨next, up, grows, many⟩ := incref_grows found
    have old := ready.below scalar p same
    have holds := (grows h.size).holds p (old.trans_le ready.inside).ne _ ⟨object, found, held⟩
    refine ⟨next, p, bind_eq_ok.mpr ⟨next, up, rfl⟩, grows _, ⟨_, holds⟩, fun _ => many,
      fun last survives => ?_⟩
    exact (denotes_scalar_iff is (survives p (Or.inl old) _ holds)).mpr representable
  | none =>
    have holds : PyHeap.Holds (h.alloc (.scalar scalar)) h.size (.scalar scalar) :=
      ⟨_, Heap.get_alloc_self h _, rfl⟩
    refine ⟨_, _, rfl, alloc_grows h _, ⟨_, holds⟩, fun shares => ?_, fun last survives => ?_⟩
    · rw [sharedFor, is, Option.bind_some, same] at shares
      cases shares
    · exact (denotes_scalar_iff is (survives _ (Or.inr le_rfl) _ holds)).mpr representable

theorem RepresentableMembers.clean {members : QJsonObject}
    (representable : RepresentableMembers shared members) :
    ∀ member ∈ members, '\x00' ∉ member.1.toList := by
  induction members with
  | nil => simp
  | cons first rest ih =>
    intro member mem
    rcases List.mem_cons.mp mem with rfl | later
    · exact representable.1.1
    · exact ih representable.2 member later

theorem drop_of_getElem? {α : Type} {l : List α} {i : Nat} {x : α} (found : l[i]? = some x) :
    l.drop i = x :: l.drop (i + 1) := by
  obtain ⟨inside, rfl⟩ := List.getElem?_eq_some_iff.mp found
  exact List.drop_eq_getElem_cons inside

mutual

theorem json2python_built : ∀ (value : Json) {h : PyHeap}, Representable shared value →
    KeysDistinct value → Ready shared base h →
    ∃ next p, json2python shared value h = .ok (next, p) ∧ Built shared base value h next p
  | .null, _, representable, _, ready => buildValue_built rfl representable ready
  | .bool _, _, representable, _, ready => buildValue_built rfl representable ready
  | .double _, _, representable, _, ready => buildValue_built rfl representable ready
  | .string _, _, representable, _, ready => buildValue_built rfl representable ready
  | .array items, h, representable, distinct, ready => by
    have grown := alloc_grows h (.list (List.replicate items.length none))
    obtain ⟨next, filled, ok, grows, holds, denotes⟩ := setItems_built items 0
      representable distinct (ready.grows grown ready.inside) ready.inside
      ⟨_, Heap.get_alloc_self h _, rfl⟩ (by simp) (fun i _ small => by
        rw [List.getElem?_replicate, if_pos (by simpa using small)])
    refine ⟨next, h.size, bind_eq_ok.mpr ⟨next, ok, rfl⟩, grown.trans grows, ⟨_, holds⟩,
      fun shares => absurd shares Bool.false_ne_true, fun last survives => ?_⟩
    exact ⟨filled, survives h.size (Or.inr le_rfl) _ holds,
      denotes last fun q seen => survives q (by omega)⟩
  | .object members, h, representable, distinct, ready => by
    have grown := alloc_grows h (.dict [])
    obtain ⟨next, filled, ok, grows, holds, keys, denotes⟩ := setMembers_built members
      representable distinct.1 distinct.2 (ready.grows grown ready.inside) ready.inside
      ⟨_, Heap.get_alloc_self h _, rfl⟩ (fun _ _ => rfl)
    refine ⟨next, h.size, bind_eq_ok.mpr ⟨next, ok, rfl⟩, grown.trans grows, ⟨_, holds⟩,
      fun shares => absurd shares Bool.false_ne_true, fun last survives => ?_⟩
    exact ⟨filled, survives h.size (Or.inr le_rfl) _ holds, by simpa using keys,
      denotes last fun q seen => survives q (by omega)⟩

theorem setItems_built {list : Nat} : ∀ (items : List Json) (index : Nat) {h : PyHeap}
    {slots : List (Option Nat)}, RepresentableItems shared items → ItemKeysDistinct items →
    Ready shared base h → base ≤ list → h.Holds list (.list slots) →
    slots.length = index + items.length →
    (∀ i, index ≤ i → i < slots.length → slots[i]? = some none) →
    ∃ next filled, setItems shared list index items h = .ok next ∧ Grows list h next ∧
      next.Holds list (.list filled) ∧ ∀ last, Survives base (list + 1) next last →
        DenotesItems last items (filled.drop index)
  | [], index, h, slots, _, _, _, _, holds, length, _ => by
    refine ⟨h, slots, rfl, ⟨le_rfl, fun _ _ _ held => held⟩, holds, fun _ _ => ?_⟩
    exact List.drop_eq_nil_of_le (by simp at length; omega)
  | value :: rest, index, h, slots, representable, distinct, ready, above, holds, length,
      empty => by
    have inside := Holds.lt_size holds
    rw [List.length_cons] at length
    obtain ⟨⟨shares, representableHere⟩, representableLater⟩ := representable
    obtain ⟨built, obj, first, built_value⟩ := json2python_built value representableHere distinct.1
      ready
    have holdsBuilt := built_value.grows.holds list inside.ne _ holds
    obtain ⟨stored, given, second, third, holdsGiven, grownGiven⟩ := storeItem_grows holdsBuilt
      (empty index le_rfl (by omega)) (built_value.many shares)
    have grown := (built_value.grows.weaken list).trans grownGiven
    have readyGiven := ready.grows grown above
    obtain ⟨next, filled, ok, grows, holdsNext, denotes⟩ := setItems_built rest (index + 1)
      representableLater distinct.2 readyGiven above holdsGiven (by simp; omega)
        (fun i le small => by
        rw [List.getElem?_set_ne (by omega)]
        exact empty i (by omega) (by simpa using small))
    refine ⟨next, filled, bind_eq_ok.mpr ⟨_, first, bind_eq_ok.mpr ⟨_, second,
      bind_eq_ok.mpr ⟨_, third, ok⟩⟩⟩, grown.trans grows, holdsNext, fun last survives => ?_⟩
    -- the slot of this element was not touched again
    obtain ⟨before, holdsBefore, -, same⟩ := setItems_slots ready.below readyGiven.inside
      (Holds.lt_size holdsGiven) ok holdsNext
    obtain rfl := PyContents.list.inj (Holds.unique holdsBefore holdsGiven)
    have slot : filled[index]? = some (some obj) := by
      rw [same index (Nat.lt_succ_self index), List.getElem?_set_self (by omega)]
    refine ⟨obj, filled.drop (index + 1), drop_of_getElem? slot, ?_, denotes last survives⟩
    exact built_value.denotes last ((grownGiven.trans grows).survives survives
      (Nat.succ_le_of_lt inside) ⟨above, inside⟩)

theorem setMembers_built {dict : Nat} : ∀ (members : QJsonObject) {h : PyHeap}
    {entries : List (List Char × Nat)}, RepresentableMembers shared members →
    (members.map Prod.fst).Nodup → MemberKeysDistinct members → Ready shared base h →
    base ≤ dict → h.Holds dict (.dict entries) →
    (∀ member ∈ members, entries.lookup member.1.toList = none) →
    ∃ next filled, setMembers shared dict members h = .ok next ∧ Grows dict h next ∧
      next.Holds dict (.dict filled) ∧
      (filled.map Prod.fst).Perm
        (members.map (fun member => member.1.toList) ++ entries.map Prod.fst) ∧
      ∀ last, Survives base (dict + 1) next last → DenotesMembers last members filled
  | [], h, entries, _, _, _, _, _, holds, _ =>
    ⟨h, entries, rfl, ⟨le_rfl, fun _ _ _ held => held⟩, holds, .refl _, fun _ _ => trivial⟩
  | (key, value) :: rest, h, entries, representable, distinct, valuesDistinct, ready, above,
      holds, fresh => by
    have inside := Holds.lt_size holds
    obtain ⟨⟨clean, representableHere⟩, representableLater⟩ := representable
    obtain ⟨apart, distinct⟩ := List.nodup_cons.mp distinct
    obtain ⟨built, obj, first, built_value⟩ := json2python_built value representableHere
      valuesDistinct.1 ready
    have holdsBuilt := built_value.grows.holds dict inside.ne _ holds
    obtain ⟨contents, alive⟩ := built_value.alive
    have placed := (json2python_shrinks ready.below value ready.inside first).2.seen ready.below
    obtain ⟨stored, given, second, third, holdsGiven, grownGiven⟩ := storeMember_grows holdsBuilt
      (fresh (key, value) List.mem_cons_self) alive (by omega)
    rw [← cStr_eq_iff.mpr clean] at second
    have grown := (built_value.grows.weaken dict).trans grownGiven
    have readyGiven := ready.grows grown above
    have others : ∀ member ∈ rest, member.1.toList ≠ key.toList := fun member mem equal =>
      apart (List.mem_map.mpr ⟨member, mem, String.toList_injective equal⟩)
    obtain ⟨next, filled, ok, grows, holdsNext, keys, denotes⟩ := setMembers_built rest
      representableLater distinct valuesDistinct.2 readyGiven above holdsGiven
      (fun member mem => by
        rw [lookup_cons_of_ne (others member mem)]
        exact fresh member (List.mem_cons_of_mem _ mem))
    refine ⟨next, filled, bind_eq_ok.mpr ⟨_, first, bind_eq_ok.mpr ⟨_, second,
      bind_eq_ok.mpr ⟨_, third, ok⟩⟩⟩, grown.trans grows, holdsNext, keys.trans ?_,
      fun last survives => ⟨⟨obj, ?_, ?_⟩, denotes last survives⟩⟩
    · simp
    · -- no later member has this key
      obtain ⟨before, holdsBefore, same⟩ := setMembers_entries ready.below readyGiven.inside
        (Holds.lt_size holdsGiven) ok holdsNext
      obtain rfl := PyContents.dict.inj (Holds.unique holdsBefore holdsGiven)
      rw [same key.toList fun member mem => ?_, List.lookup_cons_self]
      rw [cStr_eq_iff.mpr (representableLater.clean member mem)]
      exact others member mem
    · exact built_value.denotes last ((grownGiven.trans grows).survives survives
        (Nat.succ_le_of_lt inside) ⟨above, inside⟩)

end

end Built

/-- The interpreter's shared objects are there, and hold what they are shared for. -/
def Shares (shared : PyShared) (h : PyHeap) : Prop :=
  ∀ value p, shared value = some p → h.Holds p (.scalar value)

theorem Shares.below {shared : PyShared} {h : PyHeap} (shares : Shares shared h) :
    ∀ value p, shared value = some p → p < h.size := fun value p same =>
  Holds.lt_size (shares value p same)

theorem representable_of_result {shared : PyShared} {h : PyHeap} (shares : Shares shared h)
    {value : Json} (distinct : KeysDistinct value)
    (result : ∃ next root, json2python shared value h = .ok (next, root) ∧
      Denotes next value root) : Representable shared value := by
  obtain ⟨next, root, ok, denotes⟩ := result
  have faithful : Faithful shared h.size h :=
    ⟨shares.below, fun value p same _ holds => Holds.unique holds (shares value p same), le_rfl⟩
  exact representable_of_denotes value faithful distinct ok
    ⟨fun _ _ _ _ holds => holds, fun _ _ _ => le_rfl⟩ denotes

/-- The arguments denote the JSON value they were built from exactly when its
whole numbers are in the range of `int`, no text or key has a zero character,
and every element of an array is a value whose object the interpreter shares. -/
theorem json2python_denotes_iff {shared : PyShared} {h : PyHeap} (shares : Shares shared h)
    {value : Json} (distinct : KeysDistinct value) :
    (∃ next root, json2python shared value h = .ok (next, root) ∧ Denotes next value root) ↔
      Representable shared value := by
  constructor
  · exact representable_of_result shares distinct
  · intro representable
    obtain ⟨next, root, ok, built⟩ :=
      json2python_built value representable distinct ⟨shares.below, shares, le_rfl⟩
    exact ⟨next, root, ok, built.denotes next fun _ _ _ holds => holds⟩

/-- `None` and a small number. -/
def smallShared : PyShared
  | .none => some 0
  | .int 255 => some 1
  | _ => none

def smallHeap : PyHeap := ⟨[some ⟨1, Nat.one_pos, .scalar .none⟩,
  some ⟨1, Nat.one_pos, .scalar (.int 255)⟩]⟩

theorem smallHeap_shares : Shares smallShared smallHeap := by
  intro value p same
  unfold smallShared at same
  split at same
  · cases same
    exact ⟨_, rfl, rfl⟩
  · cases same
    exact ⟨_, rfl, rfl⟩
  · cases same

theorem json2python_denotes_nested : ∃ next root,
    json2python smallShared (.object [("color", .array [.double 255, .null, .double 255]),
        ("speed", .double (3 / 2)),
        ("wheel", .object [("on", .bool true), ("text", .string "ab")])])
      smallHeap = .ok (next, root) ∧
    Denotes next (.object [("color", .array [.double 255, .null, .double 255]),
        ("speed", .double (3 / 2)),
        ("wheel", .object [("on", .bool true), ("text", .string "ab")])])
      root := by
  refine (json2python_denotes_iff smallHeap_shares ?_).mpr ?_
  · simp [KeysDistinct, ItemKeysDistinct, MemberKeysDistinct]
  · have shared : (sharedFor smallShared (.double 255)).isSome := by decide +kernel
    have none : (sharedFor smallShared .null).isSome := by decide +kernel
    have half : (3 / 2 : ℚ).den ≠ 1 := by decide +kernel
    simp [Representable, RepresentableItems, RepresentableMembers, shared, none, half]

/-- A number beyond `int`, a text with a zero character, and an array whose
element is an object of its own. -/
theorem json2python_denotes_fails :
    (¬ ∃ next root, json2python smallShared (.double 2147483648) smallHeap = .ok (next, root) ∧
      Denotes next (.double 2147483648) root) ∧
    (¬ ∃ next root, json2python smallShared (.string "a\x00b") smallHeap = .ok (next, root) ∧
      Denotes next (.string "a\x00b") root) ∧
    ¬ ∃ next root, json2python smallShared (.array [.double (3 / 2)]) smallHeap =
      .ok (next, root) ∧ Denotes next (.array [.double (3 / 2)]) root := by
  refine ⟨fun result => ?_, fun result => ?_, fun result => ?_⟩
  · have range := representable_of_result smallHeap_shares (by simp [KeysDistinct]) result
    exact absurd (range (by decide +kernel)) (by decide +kernel)
  · have clean := representable_of_result smallHeap_shares (by simp [KeysDistinct]) result
    exact absurd clean (by simp [Representable])
  · have elements := representable_of_result smallHeap_shares
      (by simp [KeysDistinct, ItemKeysDistinct]) result
    exact absurd elements.1.1 (by decide +kernel)

end Effect

end HyperionNg
