import HyperionNg.Json2Python

/-! Who holds the references to the objects of an effect's arguments. A scalar
and a dictionary leave every count right. Every element of an array is held by
its list and not counted. -/

namespace HyperionNg

open Library.RefCount Library.Execution

abbrev PyHeap.surplus (h : PyHeap) (q : Nat) : Int := Heap.surplus PyContents.children h q

theorem surplus_decref {h next : PyHeap} {item : Option Nat} (ok : Py_XDECREF h item = .ok next)
    (q : Nat) : next.surplus q = h.surplus q - item.toList.count q := by
  cases item with
  | none =>
    cases ok
    simp
  | some p => exact Heap.surplus_release _ ok q

theorem count_singleton (p q : Nat) : ([p].count q : Int) = if q = p then 1 else 0 := by
  rcases eq_or_ne q p with rfl | other
  · simp
  · simp [other, other.symm]

theorem surplus_buildValue {shared : PyShared} {value : PyScalar} {h next : PyHeap} {p : Nat}
    (ok : Py_BuildValue shared value h = .ok (next, p)) (q : Nat) :
    next.surplus q = h.surplus q + if q = p then 1 else 0 := by
  unfold Py_BuildValue at ok
  split at ok
  · obtain ⟨_, increased, done⟩ := bind_eq_ok.mp ok
    cases done
    exact Heap.surplus_incref _ increased q
  · cases ok
    exact Heap.surplus_alloc PyContents.children h rfl q

theorem count_reduceOption_set {items : List (Option Nat)} {index : Nat}
    (inside : index < items.length) (item q : Nat) :
    (items.set index (some item)).reduceOption.count q + items[index]?.join.toList.count q =
      items.reduceOption.count q + [item].count q := by
  induction items generalizing index with
  | nil => simp at inside
  | cons first rest ih =>
    cases index with
    | zero =>
      cases first with
      | none => simp [List.count_cons]
      | some held =>
        simp only [List.set_cons_zero, List.reduceOption_cons_of_some, List.count_cons,
          List.getElem?_cons_zero, Option.join_some, Option.toList_some, List.count_nil]
        omega
    | succ index =>
      have inside : index < rest.length := by simpa using inside
      have later := ih inside
      rw [List.set_cons_succ, List.getElem?_cons_succ]
      cases first with
      | none => simpa using later
      | some held =>
        rw [List.reduceOption_cons_of_some, List.reduceOption_cons_of_some, List.count_cons,
          List.count_cons]
        omega

theorem surplus_setItem {h next : PyHeap} {list index item : Nat}
    (ok : PyList_SetItem h list index item = .ok next) (q : Nat) :
    next.surplus q = h.surplus q - if q = item then 1 else 0 := by
  have refused : ∀ {next : PyHeap}, Py_XDECREF h (some item) = .ok next →
      next.surplus q = h.surplus q - if q = item then 1 else 0 := by
    intro next ok
    rw [surplus_decref ok, Option.toList_some, count_singleton]
  unfold PyList_SetItem at ok
  split at ok
  · cases ok
  · next object found =>
    split at ok
    · next items contents =>
      split_ifs at ok with inside
      · have stored := count_reduceOption_set inside item q
        have one := count_singleton item q
        rw [surplus_decref ok]
        simp only [PyHeap.surplus, Heap.surplus_update _ found, contents, PyContents.children]
        omega
      · exact refused ok
    · exact refused ok

theorem count_eraseP (key : List Char) (entries : List (List Char × Nat)) (q : Nat) :
    (entries.map Prod.snd).count q =
      ((entries.eraseP fun entry => entry.1 = key).map Prod.snd).count q +
        (entries.lookup key).toList.count q := by
  induction entries with
  | nil => simp
  | cons entry rest ih =>
    obtain ⟨name, held⟩ := entry
    by_cases same : name = key
    · simp [same, List.count_cons]
    · have differs : (key == name) = false := by simpa using Ne.symm same
      simp only [List.eraseP_cons, same, decide_false, List.lookup_cons, differs, List.map_cons,
        List.count_cons, ih, cond_false]
      omega

theorem refcount_decref {h next : PyHeap} {item : Option Nat} (ok : Py_XDECREF h item = .ok next)
    (q : Nat) : next.refcount q + item.toList.count q ≤ h.refcount q := by
  cases item with
  | none =>
    cases ok
    exact le_rfl
  | some p => exact Heap.refcount_release _ ok q

theorem surplus_setItemString {h next : PyHeap} {dict : Nat} {key : List Char} {item : Nat}
    (ok : PyDict_SetItemString h dict key item = .ok next) (q : Nat) :
    next.surplus q = h.surplus q := by
  unfold PyDict_SetItemString at ok
  split at ok
  · cases ok
  · next object found =>
    split at ok
    · next entries contents =>
      obtain ⟨increased, up, down⟩ := bind_eq_ok.mp ok
      have replaced := count_eraseP key entries q
      rw [surplus_decref down]
      simp only [PyHeap.surplus, Heap.surplus_incref _ up, Heap.surplus_update _ found, contents,
        PyContents.children, List.map_cons, List.count_cons, beq_iff_eq, eq_comm (a := item)]
      split_ifs <;> push_cast <;> omega
    · cases ok
      rfl

theorem refcount_setItemString {h next : PyHeap} {dict : Nat} {key : List Char} {item : Nat}
    (ok : PyDict_SetItemString h dict key item = .ok next) (q : Nat) :
    next.refcount q ≤ h.refcount q + if q = item then 1 else 0 := by
  unfold PyDict_SetItemString at ok
  split at ok
  · cases ok
  · next object found =>
    split at ok
    · obtain ⟨increased, up, down⟩ := bind_eq_ok.mp ok
      have less := refcount_decref down q
      rw [Heap.refcount_incref up, Heap.refcount_update found] at less
      omega
    · cases ok
      exact Nat.le_add_right _ _

private theorem children_newList (size : Nat) :
    (PyContents.list (List.replicate size none)).children = [] := by
  simp [PyContents.children, List.reduceOption]

namespace Effect

mutual

/-- How many elements the arrays of a value have, at any depth. -/
def elements : Json → Nat
  | .array arrayData => arrayData.length + itemElements arrayData
  | .object objectData => memberElements objectData
  | _ => 0

def memberElements : QJsonObject → Nat
  | [] => 0
  | (_, value) :: rest => elements value + memberElements rest

def itemElements : List Json → Nat
  | [] => 0
  | value :: rest => elements value + itemElements rest

end

/-! One reference more for the result, and one less for each element of an array. -/

mutual

theorem surplus_json2python {shared : PyShared} : ∀ (value : Json) {h next : PyHeap} {p : Nat},
    json2python shared value h = .ok (next, p) → ∃ taken : List Nat,
      taken.length = elements value ∧ ∀ q,
        next.surplus q = h.surplus q + (if q = p then 1 else 0) - taken.count q
  | .null, _, _, _, ok => ⟨[], rfl, by simpa using surplus_buildValue ok⟩
  | .bool b, _, _, _, ok => ⟨[], rfl, by simpa using surplus_buildValue ok⟩
  | .string s, _, _, _, ok => ⟨[], rfl, by simpa using surplus_buildValue ok⟩
  | .double d, h, next, p, ok => by
    refine ⟨[], rfl, ?_⟩
    unfold json2python at ok
    split_ifs at ok <;> simpa using surplus_buildValue ok
  | .object objectData, h, next, p, ok => by
    obtain ⟨filled, members, done⟩ := bind_eq_ok.mp ok
    obtain ⟨rfl, rfl⟩ := Prod.mk.inj (pure_eq_ok.mp done)
    obtain ⟨taken, length, surplus⟩ := surplus_setMembers objectData members
    refine ⟨taken, length, fun q => ?_⟩
    rw [surplus q]
    exact congrArg (· - (taken.count q : Int)) (Heap.surplus_alloc PyContents.children h rfl q)
  | .array arrayData, h, next, p, ok => by
    obtain ⟨filled, items, done⟩ := bind_eq_ok.mp ok
    obtain ⟨rfl, rfl⟩ := Prod.mk.inj (pure_eq_ok.mp done)
    obtain ⟨taken, length, surplus⟩ := surplus_setItems arrayData items
    refine ⟨taken, length, fun q => ?_⟩
    rw [surplus q]
    exact congrArg (· - (taken.count q : Int))
      (Heap.surplus_alloc PyContents.children h (children_newList arrayData.length) q)

theorem surplus_setMembers {shared : PyShared} {dict : Nat} : ∀ (objectData : QJsonObject)
    {h next : PyHeap}, setMembers shared dict objectData h = .ok next → ∃ taken : List Nat,
      taken.length = memberElements objectData ∧ ∀ q,
        next.surplus q = h.surplus q - taken.count q
  | [], _, _, ok => by
    cases ok
    exact ⟨[], rfl, by simp⟩
  | (key, value) :: rest, h, next, ok => by
    obtain ⟨⟨built, obj⟩, first, ok⟩ := bind_eq_ok.mp ok
    obtain ⟨stored, second, ok⟩ := bind_eq_ok.mp ok
    obtain ⟨given, third, ok⟩ := bind_eq_ok.mp ok
    obtain ⟨own, ownLength, ownSurplus⟩ := surplus_json2python value first
    obtain ⟨others, othersLength, othersSurplus⟩ := surplus_setMembers rest ok
    refine ⟨own ++ others, ?_, fun q => ?_⟩
    · rw [List.length_append, ownLength, othersLength, memberElements]
    · rw [othersSurplus, surplus_decref third, surplus_setItemString second, ownSurplus,
        List.count_append, Option.toList_some, count_singleton]
      push_cast
      ring

theorem surplus_setItems {shared : PyShared} {list : Nat} : ∀ {index : Nat}
    (arrayData : List Json) {h next : PyHeap},
    setItems shared list index arrayData h = .ok next → ∃ taken : List Nat,
      taken.length = arrayData.length + itemElements arrayData ∧ ∀ q,
        next.surplus q = h.surplus q - taken.count q
  | _, [], _, _, ok => by
    cases ok
    exact ⟨[], rfl, by simp⟩
  | index, value :: rest, h, next, ok => by
    obtain ⟨⟨built, obj⟩, first, ok⟩ := bind_eq_ok.mp ok
    obtain ⟨stored, second, ok⟩ := bind_eq_ok.mp ok
    obtain ⟨given, third, ok⟩ := bind_eq_ok.mp ok
    obtain ⟨own, ownLength, ownSurplus⟩ := surplus_json2python value first
    obtain ⟨others, othersLength, othersSurplus⟩ := surplus_setItems rest ok
    refine ⟨obj :: (own ++ others), ?_, fun q => ?_⟩
    · rw [List.length_cons, List.length_append, ownLength, othersLength, List.length_cons,
        itemElements]
      omega
    · rw [othersSurplus, surplus_decref third, surplus_setItem second, ownSurplus,
        List.count_cons, List.count_append, Option.toList_some, count_singleton]
      simp only [beq_iff_eq, eq_comm (a := obj)]
      push_cast
      ring

end

/-! Without elements nothing fails. New objects refer to newer ones, or to
those the interpreter keeps. -/

/-- Every reference is counted, and the interpreter holds what it shares. -/
structure Wellformed (shared : PyShared) (h : PyHeap) : Prop where
  closed : ∀ q, 0 ≤ h.surplus q
  kept : ∀ value p, shared value = some p → 1 ≤ h.surplus p

/-- A heap on the way, grown from one of size `base` by objects of one reference. -/
structure Sound (shared : PyShared) (base : Nat) (h : PyHeap) : Prop
    extends Wellformed shared h where
  below : ∀ value p, shared value = some p → p < base
  ordered : Heap.Ordered PyContents.children base h
  single : ∀ q, base ≤ q → h.refcount q ≤ 1
  base_le : base ≤ h.size

theorem Wellformed.sound {shared : PyShared} {h : PyHeap} (wellformed : Wellformed shared h) :
    Sound shared h.size h where
  toWellformed := wellformed
  below value p same := by
    obtain ⟨object, found⟩ := Heap.get_isSome_of_surplus PyContents.children
      (lt_of_lt_of_le Int.zero_lt_one (wellformed.kept value p same))
    exact Heap.lt_size_of_get found
  ordered q object above found := by
    have inside := Heap.lt_size_of_get found
    omega
  single q above := by
    rw [Heap.refcount, Heap.get_of_size_le above]
    exact Nat.zero_le _
  base_le := le_rfl

theorem Sound.grow {shared : PyShared} {base : Nat} {h next : PyHeap}
    (sound : Sound shared base h) (more : ∀ q, h.surplus q ≤ next.surplus q)
    (ordered : Heap.Ordered PyContents.children base next)
    (single : ∀ q, base ≤ q → next.refcount q ≤ 1) (size : h.size ≤ next.size) :
    Sound shared base next where
  closed q := (sound.closed q).trans (more q)
  kept value p same := (sound.kept value p same).trans (more p)
  below := sound.below
  ordered := ordered
  single := single
  base_le := sound.base_le.trans size

theorem Sound.alloc {shared : PyShared} {base : Nat} {h : PyHeap} (sound : Sound shared base h)
    {contents : PyContents} (empty : contents.children = []) :
    Sound shared base (h.alloc contents) := by
  refine sound.grow (fun q => ?_) (sound.ordered.alloc _ empty) (fun q above => ?_) ?_
  · rw [PyHeap.surplus, PyHeap.surplus, Heap.surplus_alloc _ _ empty]
    split_ifs <;> omega
  · have one := sound.single q above
    rw [Heap.refcount_alloc]
    split_ifs with fresh
    · rw [fresh, Heap.refcount, Heap.get_of_size_le le_rfl]
      exact le_rfl
    · exact one
  · rw [Heap.size_alloc]
    exact Nat.le_succ _

theorem buildValue_returns {shared : PyShared} {base : Nat} {h : PyHeap}
    (sound : Sound shared base h) (value : PyScalar) :
    ∃ next p, Py_BuildValue shared value h = .ok (next, p) ∧ Sound shared base next ∧
      Heap.Keeps h.size h next ∧ (p < base ∨ h.size ≤ p) := by
  unfold Py_BuildValue
  cases same : shared value with
  | some p =>
    obtain ⟨object, found⟩ := Heap.get_isSome_of_surplus PyContents.children
      (lt_of_lt_of_le Int.zero_lt_one (sound.kept value p same))
    obtain ⟨next, up⟩ : ∃ next, h.incref p = .ok next := by
      rw [Heap.incref, found]
      exact ⟨_, rfl⟩
    have below := sound.below value p same
    obtain ⟨keeps, size⟩ := Heap.keeps_incref up h.size
    refine ⟨next, p, bind_eq_ok.mpr ⟨next, up, rfl⟩, ?_, keeps, Or.inl below⟩
    refine sound.grow (fun q => ?_) (sound.ordered.keeps _ (size ▸ keeps)) (fun q above => ?_)
      size.ge
    · rw [PyHeap.surplus, PyHeap.surplus, Heap.surplus_incref _ up]
      split_ifs <;> omega
    · rw [Heap.refcount_incref up, if_neg (by omega)]
      exact sound.single q above
  | none =>
    exact ⟨_, _, rfl, sound.alloc rfl, Heap.keeps_alloc _ _, Or.inr le_rfl⟩

theorem decref_returns {h : PyHeap} {item : Option Nat}
    (covered : ∀ q, (item.toList.count q : Int) ≤ h.surplus q) :
    ∃ next, Py_XDECREF h item = .ok next ∧ ∀ base, Heap.Keeps base h next := by
  cases item with
  | none => exact ⟨h, rfl, fun base => .refl base h⟩
  | some p =>
    obtain ⟨next, ok⟩ : ∃ next, Py_XDECREF h (some p) = .ok next :=
      Heap.release_returns PyContents.children le_rfl covered
    exact ⟨next, ok, fun base => Heap.keeps_release _ ok base⟩

theorem setItemString_returns {base : Nat} {h : PyHeap} (closed : ∀ q, 0 ≤ h.surplus q)
    (ordered : Heap.Ordered PyContents.children base h) {dict : Nat} {object : Object PyContents}
    (found : h.get dict = some object) {entries : List (List Char × Nat)}
    (contents : object.contents = .dict entries) (above : base ≤ dict) (key : List Char)
    {item : Nat} (own : 1 ≤ h.surplus item) (later : item < base ∨ dict < item) :
    ∃ next, PyDict_SetItemString h dict key item = .ok next ∧
      Heap.Ordered PyContents.children base next ∧ Heap.Keeps dict h next ∧
      ∀ object, next.get dict = some object → ∃ entries, object.contents = .dict entries := by
  obtain ⟨others, hothers⟩ : ∃ others, others = entries.eraseP fun entry => entry.1 = key :=
    ⟨_, rfl⟩
  obtain ⟨updated, hupdated⟩ : ∃ updated : PyHeap,
      updated = h.update dict object (.dict ((key, item) :: others)) := ⟨_, rfl⟩
  have orderedUpdated : Heap.Ordered PyContents.children base updated := by
    rw [hupdated]
    refine ordered.update _ found fun c mem => ?_
    rcases List.mem_cons.mp mem with rfl | other
    · exact later
    · refine ordered dict object above found c ?_
      rw [contents]
      obtain ⟨entry, member, rfl⟩ := List.mem_map.mp other
      exact List.mem_map_of_mem (List.mem_of_mem_eraseP (hothers ▸ member))
  obtain ⟨increased, up⟩ : ∃ increased : PyHeap, updated.incref item = .ok increased := by
    obtain ⟨there, live⟩ := Heap.get_isSome_of_surplus PyContents.children
      (lt_of_lt_of_le Int.zero_lt_one own)
    have live : ∃ there, updated.get item = some there := by
      by_cases same : item = dict
      · rw [hupdated, same]
        exact ⟨_, Heap.get_set_self (Heap.lt_size_of_get found) _⟩
      · rw [hupdated]
        exact ⟨there, (Heap.get_set_of_ne h same _).trans live⟩
    obtain ⟨there, live⟩ := live
    rw [Heap.incref, live]
    exact ⟨_, rfl⟩
  have surplus : ∀ q, increased.surplus q = h.surplus q + (entries.lookup key).toList.count q := by
    intro q
    have replaced := count_eraseP key entries q
    have counted := Heap.surplus_update PyContents.children found
      (.dict ((key, item) :: others)) q
    rw [← hupdated, contents] at counted
    simp only [PyHeap.surplus, Heap.surplus_incref _ up, counted, PyContents.children, hothers,
      List.map_cons, List.count_cons, beq_iff_eq, eq_comm (a := item)]
    split_ifs <;> push_cast <;> omega
  have covered : ∀ q, ((entries.lookup key).toList.count q : Int) ≤ increased.surplus q := by
    intro q
    rw [surplus q]
    have nonneg := closed q
    omega
  obtain ⟨next, down, keepsNext⟩ := decref_returns covered
  have keepsUp := (Heap.keeps_incref up dict).1
  refine ⟨next, ?_, ?_, ?_, fun last here => ?_⟩
  · rw [PyDict_SetItemString, found]
    simp only [contents, ← hothers, ← hupdated]
    exact bind_eq_ok.mpr ⟨increased, up, down⟩
  · exact (orderedUpdated.keeps _ (Heap.keeps_incref up _).1).keeps _ (keepsNext _)
  · exact ((hupdated ▸ Heap.keeps_update h dict object _).trans keepsUp).trans (keepsNext dict)
  · obtain ⟨middle, foundMiddle, same⟩ :=
      (keepsNext (dict + 1)).contents dict (Nat.lt_succ_self _) last here
    obtain ⟨first, foundFirst, before⟩ :=
      (Heap.keeps_incref up (dict + 1)).1.contents dict (Nat.lt_succ_self _) middle foundMiddle
    rw [hupdated, Heap.update, Heap.get_set_self (Heap.lt_size_of_get found)] at foundFirst
    refine ⟨(key, item) :: others, ?_⟩
    rw [← same, ← before, ← Option.some.inj foundFirst]

theorem storeMember_returns {base : Nat} {h : PyHeap} (closed : ∀ q, 0 ≤ h.surplus q)
    (ordered : Heap.Ordered PyContents.children base h) {dict : Nat} {object : Object PyContents}
    (found : h.get dict = some object) {entries : List (List Char × Nat)}
    (contents : object.contents = .dict entries) (above : base ≤ dict) (key : List Char)
    {item : Nat} (own : 1 ≤ h.surplus item) (later : item < base ∨ dict < item) :
    ∃ stored next, PyDict_SetItemString h dict key item = .ok stored ∧
      Py_XDECREF stored (some item) = .ok next ∧
      Heap.Ordered PyContents.children base next ∧ Heap.Keeps dict h next ∧
      (∀ q, next.surplus q = h.surplus q - if q = item then 1 else 0) ∧
      (∀ q, next.refcount q ≤ h.refcount q) ∧
      ∀ object, next.get dict = some object → ∃ entries, object.contents = .dict entries := by
  obtain ⟨stored, first, orderedStored, keepsStored, isDict⟩ :=
    setItemString_returns closed ordered found contents above key own later
  have surplusStored := surplus_setItemString first
  have covered : ∀ q, ((some item).toList.count q : Int) ≤ stored.surplus q := by
    intro q
    rw [surplusStored, Option.toList_some, count_singleton]
    split_ifs with same
    · rw [same]
      exact own
    · exact closed q
  obtain ⟨next, second, keepsNext⟩ := decref_returns covered
  refine ⟨stored, next, first, second, orderedStored.keeps _ (keepsNext _),
    keepsStored.trans (keepsNext dict), fun q => ?_, fun q => ?_, fun last here => ?_⟩
  · rw [surplus_decref second, surplusStored, Option.toList_some, count_singleton]
  · have more := refcount_setItemString first q
    have less := refcount_decref second q
    rw [Option.toList_some, List.count_singleton] at less
    simp only [beq_iff_eq, eq_comm (a := item)] at less
    omega
  · obtain ⟨before, foundBefore, same⟩ :=
      (keepsNext (dict + 1)).contents dict (Nat.lt_succ_self _) last here
    obtain ⟨entries, held⟩ := isDict before foundBefore
    exact ⟨entries, same.symm.trans held⟩

theorem surplus_of_no_elements {shared : PyShared} {value : Json} {h next : PyHeap} {p : Nat}
    (without : elements value = 0) (ok : json2python shared value h = .ok (next, p)) (q : Nat) :
    next.surplus q = h.surplus q + if q = p then 1 else 0 := by
  obtain ⟨taken, length, surplus⟩ := surplus_json2python value ok
  obtain rfl : taken = [] := List.eq_nil_of_length_eq_zero (length.trans without)
  simpa using surplus q

mutual

theorem json2python_returns {shared : PyShared} {base : Nat} : ∀ (value : Json) {h : PyHeap},
    elements value = 0 → Sound shared base h →
    ∃ next p, json2python shared value h = .ok (next, p) ∧ Sound shared base next ∧
      Heap.Keeps h.size h next ∧ (p < base ∨ h.size ≤ p)
  | .null, _, _, sound => buildValue_returns sound _
  | .bool b, _, _, sound => buildValue_returns sound _
  | .string s, _, _, sound => buildValue_returns sound _
  | .double d, h, _, sound => by
    unfold json2python
    split_ifs
    · exact buildValue_returns sound _
    · exact buildValue_returns sound _
  | .array [], h, _, sound =>
    ⟨h.alloc (.list []), h.size, rfl, sound.alloc rfl, Heap.keeps_alloc _ _, Or.inr le_rfl⟩
  | .array (_ :: _), _, without, _ => by
    rw [elements, List.length_cons] at without
    omega
  | .object objectData, h, without, sound => by
    have own : 1 ≤ PyHeap.surplus (h.alloc (.dict [])) h.size := by
      have nonneg := sound.closed h.size
      rw [PyHeap.surplus, Heap.surplus_alloc _ _ rfl, if_pos rfl]
      exact Int.le_add_of_nonneg_left nonneg
    obtain ⟨next, members, soundNext, keeps⟩ := setMembers_returns objectData without
      (sound.alloc rfl) sound.base_le (Heap.get_alloc_self h _) rfl own
    exact ⟨next, h.size, bind_eq_ok.mpr ⟨next, members, rfl⟩, soundNext,
      (Heap.keeps_alloc h _).trans keeps, Or.inr le_rfl⟩

theorem setMembers_returns {shared : PyShared} {base : Nat} : ∀ (objectData : QJsonObject)
    {h : PyHeap}, memberElements objectData = 0 → Sound shared base h → ∀ {dict : Nat}
    {object : Object PyContents} {entries : List (List Char × Nat)}, base ≤ dict →
    h.get dict = some object → object.contents = .dict entries → 1 ≤ h.surplus dict →
    ∃ next, setMembers shared dict objectData h = .ok next ∧ Sound shared base next ∧
      Heap.Keeps dict h next
  | [], h, _, sound, dict, _, _, _, _, _, _ => ⟨h, rfl, sound, .refl dict h⟩
  | (key, value) :: rest, h, without, sound, dict, object, entries, above, found, contents,
      own => by
    obtain ⟨withoutHere, withoutLater⟩ : elements value = 0 ∧ memberElements rest = 0 := by
      rw [memberElements] at without
      omega
    -- the value, which is newer than the dictionary or kept by the interpreter
    obtain ⟨built, obj, first, soundBuilt, keepsBuilt, place⟩ :=
      json2python_returns value withoutHere sound
    have inside := Heap.lt_size_of_get found
    have surplusBuilt := surplus_of_no_elements withoutHere first
    have ownObj : 1 ≤ built.surplus obj := by
      have nonneg := sound.closed obj
      rw [surplusBuilt, if_pos rfl]
      omega
    obtain ⟨holder, foundBuilt⟩ := Heap.get_isSome_of_surplus PyContents.children
      (h := built) (p := dict) (by
        have more := surplusBuilt dict
        rw [PyHeap.surplus] at more
        split_ifs at more <;> omega)
    obtain ⟨old, foundOld, same⟩ := keepsBuilt.contents dict inside holder foundBuilt
    obtain rfl := Option.some.inj (found.symm.trans foundOld)
    obtain ⟨stored, given, second, third, orderedGiven, keepsGiven, surplusGiven, counts, isDict⟩ :=
      storeMember_returns soundBuilt.closed soundBuilt.ordered foundBuilt
        (same.symm.trans contents) above (cStr key) ownObj (place.imp_right inside.trans_le)
    -- the reference of the caller is the one that the new object came with
    have balance : ∀ q, given.surplus q = h.surplus q := fun q => by
      rw [surplusGiven, surplusBuilt, add_sub_cancel_right]
    have keeps : Heap.Keeps dict h given := (keepsBuilt.mono inside.le).trans keepsGiven
    have soundGiven : Sound shared base given :=
      sound.grow (fun q => (balance q).ge) orderedGiven
        (fun q aboveBase => (counts q).trans (soundBuilt.single q aboveBase)) keeps.size
    obtain ⟨last, foundLast⟩ := Heap.get_isSome_of_surplus PyContents.children
      (h := given) (p := dict) (by
        have same := balance dict
        rw [PyHeap.surplus] at same
        omega)
    obtain ⟨entriesLast, contentsLast⟩ := isDict last foundLast
    obtain ⟨next, fourth, soundNext, keepsNext⟩ := setMembers_returns rest withoutLater soundGiven
      above foundLast contentsLast ((balance dict).symm ▸ own)
    refine ⟨next, ?_, soundNext, keeps.trans keepsNext⟩
    exact bind_eq_ok.mpr ⟨_, first, bind_eq_ok.mpr ⟨_, second,
      bind_eq_ok.mpr ⟨_, third, fourth⟩⟩⟩

end

/-- A value is built with a reference for the caller and one for each place it
is put in; each new object has just one, and giving up the first frees them all. -/
def Owned (shared : PyShared) (h : PyHeap) (value : Json) : Prop :=
  ∃ next root, json2python shared value h = .ok (next, root) ∧
    (∀ q, next.surplus q = h.surplus q + if q = root then 1 else 0) ∧
    (∀ q, h.size ≤ q → next.refcount q ≤ 1) ∧
    ∃ last, Py_XDECREF next (some root) = .ok last ∧ ∀ q, h.size ≤ q → last.get q = none

/-- The objects of a value are owned exactly when no array in it has an element. -/
theorem owned_iff {shared : PyShared} {h : PyHeap} (wellformed : Wellformed shared h)
    (value : Json) : Owned shared h value ↔ elements value = 0 := by
  constructor
  · rintro ⟨next, root, built, owned, -⟩
    obtain ⟨taken, length, surplus⟩ := surplus_json2python value built
    have none : taken = [] := List.eq_nil_iff_forall_not_mem.mpr fun q mem => by
      have counted := List.count_pos_iff.mpr mem
      have both := (surplus q).symm.trans (owned q)
      omega
    rw [← length, none, List.length_nil]
  · intro without
    obtain ⟨next, root, built, sound, keeps, -⟩ :=
      json2python_returns value without wellformed.sound
    have surplus := surplus_of_no_elements without built
    have covered : ∀ q, ((some root).toList.count q : Int) ≤ next.surplus q := by
      intro q
      have nonneg := wellformed.closed q
      rw [surplus, Option.toList_some, count_singleton]
      omega
    obtain ⟨last, down, keepsLast⟩ := decref_returns covered
    refine ⟨next, root, built, surplus, sound.single, last, down, ?_⟩
    refine Heap.get_none_of_surplus PyContents.children wellformed.closed
      (keeps.trans (keepsLast h.size)) (sound.ordered.keeps _ (keepsLast _)) fun q => ?_
    have given := surplus_decref down q
    rw [surplus, Option.toList_some, count_singleton] at given
    exact given.trans (add_sub_cancel_right _ _)

/-- `None`, held by the interpreter. -/
def sampleShared : PyShared
  | .none => some 0
  | _ => none

def sampleHeap : PyHeap := ⟨[some ⟨1, Nat.one_pos, .scalar .none⟩]⟩

theorem owned_nested : Owned sampleShared sampleHeap
    (.object [("a", .null), ("b", .object [("c", .double (3 / 2)), ("d", .array [])])]) := by
  refine (owned_iff ⟨fun q => ?_, fun value p same => ?_⟩ _).mpr rfl
  · rcases q with _ | q
    · decide
    · rfl
  · obtain rfl : p = 0 := by
      cases value <;> simp [sampleShared] at same
      exact same.symm
    decide

/-- The element is freed while the list still refers to it. -/
theorem element_freed : ∃ next : PyHeap,
    json2python sampleShared (.array [.double (3 / 2)]) sampleHeap = .ok (next, 1) ∧
      next.get 2 = none ∧ next.held PyContents.children 2 = 1 ∧
      Py_XDECREF next (some 1) = .error .useAfterFree ∧
      ¬ Owned sampleShared sampleHeap (.array [.double (3 / 2)]) := by
  have checked : returnsWith (json2python sampleShared (.array [.double (3 / 2)]) sampleHeap)
      (fun built => built.2 = 1 ∧ built.1.get 2 = none ∧
        built.1.held PyContents.children 2 = 1 ∧
        Py_XDECREF built.1 (some 1) = .error .useAfterFree) = true := by decide +kernel
  obtain ⟨⟨next, root⟩, built, facts⟩ := exists_of_returnsWith checked
  obtain ⟨rfl, gone, held, fault⟩ := of_decide_eq_true facts
  refine ⟨next, built, gone, held, fault, ?_⟩
  rintro ⟨other, root, again, -, -, last, down, -⟩
  obtain ⟨rfl, rfl⟩ := Prod.mk.inj (Except.ok.inj (built.symm.trans again))
  exact absurd (fault.symm.trans down) (by simp)

end Effect

end HyperionNg
