import Mathlib.Tactic

/-! A heap of reference-counted objects. The surplus of an address is the part
of its count that no object of the heap accounts for: references held outside,
if it is positive. Giving up a reference lowers one surplus by one, whatever is
freed on the way, and never fails where there is a surplus to give up. -/

namespace HyperionNg.Library.RefCount

structure Object (γ : Type) where
  refcount : Nat
  positive : 0 < refcount
  contents : γ
deriving DecidableEq

structure Heap (γ : Type) where
  objects : List (Option (Object γ))
deriving DecidableEq

inductive MemoryFault
  | useAfterFree
deriving DecidableEq, Repr

theorem sum_map_set {α : Type} (f : α → Nat) {l : List α} {i : Nat} {x : α} (y : α)
    (found : l[i]? = some x) : ((l.set i y).map f).sum + f x = (l.map f).sum + f y := by
  induction l generalizing i with
  | nil => simp at found
  | cons head tail ih =>
    cases i with
    | zero =>
      obtain rfl : head = x := by simpa using found
      simp only [List.set_cons_zero, List.map_cons, List.sum_cons]
      omega
    | succ i =>
      have rest := ih (i := i) (by simpa using found)
      simp only [List.set_cons_succ, List.map_cons, List.sum_cons]
      omega

namespace Heap

variable {γ : Type}

def size (h : Heap γ) : Nat := h.objects.length

def get (h : Heap γ) (p : Nat) : Option (Object γ) := h.objects[p]?.join

def set (h : Heap γ) (p : Nat) (object : Option (Object γ)) : Heap γ := ⟨h.objects.set p object⟩

def alloc (h : Heap γ) (contents : γ) : Heap γ := ⟨h.objects ++ [some ⟨1, Nat.one_pos, contents⟩]⟩

def refcount (h : Heap γ) (p : Nat) : Nat := (h.get p).elim 0 Object.refcount

def incref (h : Heap γ) (p : Nat) : Except MemoryFault (Heap γ) :=
  match h.get p with
  | some object => .ok (h.set p (some
      { object with refcount := object.refcount + 1, positive := Nat.succ_pos _ }))
  | none => .error .useAfterFree

def update (h : Heap γ) (p : Nat) (object : Object γ) (contents : γ) : Heap γ :=
  h.set p (some { object with contents })

def total (h : Heap γ) : Nat := (h.objects.map fun object => object.elim 0 Object.refcount).sum

variable (children : γ → List Nat)

def release : Nat → List Nat → Heap γ → Except MemoryFault (Heap γ)
  | _, [], h => .ok h
  | 0, _ :: _, _ => .error .useAfterFree
  | fuel + 1, p :: rest, h =>
    match h.get p with
    | none => .error .useAfterFree
    | some object =>
      if many : 1 < object.refcount then
        release fuel rest (h.set p (some { object with
          refcount := object.refcount - 1, positive := Nat.sub_pos_of_lt many }))
      else release fuel (children object.contents ++ rest) (h.set p none)

def decref (h : Heap γ) (p : Nat) : Except MemoryFault (Heap γ) := release children h.total [p] h

def references (object : Option (Object γ)) : List Nat :=
  object.elim [] fun object => children object.contents

def held (h : Heap γ) (p : Nat) : Nat :=
  (h.objects.map fun object => (references children object).count p).sum

def surplus (h : Heap γ) (p : Nat) : Int := h.refcount p - h.held children p

theorem get_eq_some {h : Heap γ} {p : Nat} {object : Object γ} :
    h.get p = some object ↔ h.objects[p]? = some (some object) := by
  rw [get, Option.join_eq_some_iff]

theorem lt_size_of_get {h : Heap γ} {p : Nat} {object : Object γ} (found : h.get p = some object) :
    p < h.size :=
  (List.getElem?_eq_some_iff.mp (get_eq_some.mp found)).1

@[simp] theorem size_set (h : Heap γ) (p : Nat) (object : Option (Object γ)) :
    (h.set p object).size = h.size := List.length_set

@[simp] theorem size_alloc (h : Heap γ) (contents : γ) : (h.alloc contents).size = h.size + 1 := by
  simp [alloc, size]

theorem get_set_self {h : Heap γ} {p : Nat} (inside : p < h.size) (object : Option (Object γ)) :
    (h.set p object).get p = object := by
  simp [get, set, List.getElem?_set_self inside]

theorem get_set_of_ne (h : Heap γ) {p q : Nat} (other : q ≠ p) (object : Option (Object γ)) :
    (h.set p object).get q = h.get q := by
  simp [get, set, List.getElem?_set_ne other.symm]

theorem get_alloc_self (h : Heap γ) (contents : γ) :
    (h.alloc contents).get h.size = some ⟨1, Nat.one_pos, contents⟩ := by
  simp [get, alloc, size]

theorem get_alloc_of_lt {h : Heap γ} {p : Nat} (inside : p < h.size) (contents : γ) :
    (h.alloc contents).get p = h.get p := by
  rw [get, alloc, List.getElem?_append_left inside, get]

theorem get_of_size_le {h : Heap γ} {p : Nat} (outside : h.size ≤ p) : h.get p = none := by
  rw [get, List.getElem?_eq_none outside]
  rfl

theorem refcount_set {h : Heap γ} {p : Nat} (inside : p < h.size) (object : Option (Object γ))
    (q : Nat) :
    (h.set p object).refcount q =
      if q = p then object.elim 0 Object.refcount else h.refcount q := by
  unfold refcount
  split_ifs with same
  · rw [same, get_set_self inside]
  · rw [get_set_of_ne h same]

theorem total_set {h : Heap γ} {p : Nat} {old : Object γ} (found : h.get p = some old)
    (object : Option (Object γ)) :
    (h.set p object).total + old.refcount = h.total + object.elim 0 Object.refcount :=
  sum_map_set (fun object => Option.elim object 0 Object.refcount) object (get_eq_some.mp found)

theorem held_set {h : Heap γ} {p : Nat} {old : Object γ} (found : h.get p = some old)
    (object : Option (Object γ)) (q : Nat) :
    (h.set p object).held children q + (children old.contents).count q =
      h.held children q + (references children object).count q :=
  sum_map_set (fun object => (references children object).count q) object (get_eq_some.mp found)

/-! ### The count of each operation -/

theorem refcount_alloc (h : Heap γ) (contents : γ) (q : Nat) :
    (h.alloc contents).refcount q = h.refcount q + if q = h.size then 1 else 0 := by
  unfold refcount
  split_ifs with fresh
  · rw [fresh, get_alloc_self, get_of_size_le le_rfl]
    rfl
  · rcases lt_or_ge q h.size with old | beyond
    · rw [get_alloc_of_lt old, add_zero]
    · rw [get_of_size_le beyond, get_of_size_le, add_zero]
      rw [size_alloc]
      omega

theorem refcount_incref {h next : Heap γ} {p : Nat} (ok : h.incref p = .ok next) (q : Nat) :
    next.refcount q = h.refcount q + if q = p then 1 else 0 := by
  unfold incref at ok
  split at ok
  · next object found =>
    cases ok
    rw [refcount_set (lt_size_of_get found)]
    split_ifs with same
    · rw [same, refcount, found]
      rfl
    · rfl
  · cases ok

theorem refcount_update {h : Heap γ} {p : Nat} {object : Object γ} (found : h.get p = some object)
    (contents : γ) (q : Nat) : (h.update p object contents).refcount q = h.refcount q := by
  rw [update, refcount_set (lt_size_of_get found)]
  split_ifs with here
  · rw [here, refcount, found]
    rfl
  · rfl

theorem refcount_decrement {h : Heap γ} {p : Nat} {object : Object γ}
    (found : h.get p = some object) (many : 1 < object.refcount) (q : Nat) :
    (h.set p (some { object with
      refcount := object.refcount - 1, positive := Nat.sub_pos_of_lt many })).refcount q +
        (if q = p then 1 else 0) = h.refcount q := by
  rw [refcount_set (lt_size_of_get found)]
  split_ifs with same
  · rw [same, refcount, found]
    exact Nat.sub_add_cancel object.positive
  · rfl

theorem refcount_free {h : Heap γ} {p : Nat} {object : Object γ} (found : h.get p = some object)
    (last : object.refcount = 1) (q : Nat) :
    (h.set p none).refcount q + (if q = p then 1 else 0) = h.refcount q := by
  rw [refcount_set (lt_size_of_get found)]
  split_ifs with same
  · rw [same, refcount, found, Option.elim_some, last]
    rfl
  · rfl

theorem release_induction {motive : List Nat → Heap γ → Prop} {next : Heap γ}
    (done : motive [] next)
    (decrement : ∀ {p rest h object} (_ : h.get p = some object) (many : 1 < object.refcount),
      motive rest (h.set p (some { object with
        refcount := object.refcount - 1, positive := Nat.sub_pos_of_lt many })) →
      motive (p :: rest) h)
    (free : ∀ {p rest h object}, h.get p = some object → object.refcount = 1 →
      motive (children object.contents ++ rest) (h.set p none) → motive (p :: rest) h)
    {fuel : Nat} {work : List Nat} {h : Heap γ} (ok : release children fuel work h = .ok next) :
    motive work h := by
  induction fuel generalizing work h with
  | zero =>
    cases work with
    | nil =>
      cases ok
      exact done
    | cons p rest => cases ok
  | succ fuel ih =>
    cases work with
    | nil =>
      cases ok
      exact done
    | cons p rest =>
      rw [release] at ok
      split at ok
      · cases ok
      · next object found =>
        split_ifs at ok with many
        · exact decrement found many (ih ok)
        · exact free found (le_antisymm (not_lt.mp many) object.positive) (ih ok)

theorem refcount_release {fuel : Nat} {work : List Nat} {h next : Heap γ}
    (ok : release children fuel work h = .ok next) (q : Nat) :
    next.refcount q + work.count q ≤ h.refcount q := by
  refine release_induction children (motive := fun work h =>
    next.refcount q + work.count q ≤ h.refcount q) le_rfl ?_ ?_ ok
  · intro p rest h object found many later
    have here := refcount_decrement found many q
    rw [List.count_cons]
    simp only [beq_iff_eq, eq_comm (a := p)]
    omega
  · intro p rest h object found last later
    have here := refcount_free found last q
    rw [List.count_append] at later
    rw [List.count_cons]
    simp only [beq_iff_eq, eq_comm (a := p)]
    omega

/-! ### The surplus of each operation -/

theorem surplus_alloc (h : Heap γ) {contents : γ} (empty : children contents = []) (q : Nat) :
    (h.alloc contents).surplus children q = h.surplus children q + if q = h.size then 1 else 0 := by
  have held : (h.alloc contents).held children q = h.held children q := by
    simp [Heap.held, alloc, references, empty]
  rw [surplus, surplus, held, refcount_alloc]
  split_ifs <;> push_cast <;> omega

theorem surplus_incref {h next : Heap γ} {p : Nat} (ok : h.incref p = .ok next) (q : Nat) :
    next.surplus children q = h.surplus children q + if q = p then 1 else 0 := by
  have count := refcount_incref ok q
  unfold incref at ok
  split at ok
  · next object found =>
    cases ok
    have held := held_set children found (some
      { object with refcount := object.refcount + 1, positive := Nat.succ_pos _ }) q
    simp only [references, Option.elim_some] at held
    rw [surplus, surplus, count]
    split_ifs <;> push_cast <;> omega
  · cases ok

theorem surplus_update {h : Heap γ} {p : Nat} {object : Object γ} (found : h.get p = some object)
    (contents : γ) (q : Nat) :
    (h.update p object contents).surplus children q =
      h.surplus children q + (children object.contents).count q - (children contents).count q := by
  have held := held_set children found (some { object with contents }) q
  simp only [references, Option.elim_some] at held
  rw [surplus, surplus, refcount_update found, update]
  omega

theorem surplus_decrement {h : Heap γ} {p : Nat} {object : Object γ}
    (found : h.get p = some object) (many : 1 < object.refcount) (q : Nat) :
    (h.set p (some { object with
      refcount := object.refcount - 1, positive := Nat.sub_pos_of_lt many })).surplus children q =
        h.surplus children q - if q = p then 1 else 0 := by
  have held := held_set children found (some { object with
    refcount := object.refcount - 1, positive := Nat.sub_pos_of_lt many }) q
  simp only [references, Option.elim_some] at held
  rw [surplus, surplus, ← refcount_decrement found many q]
  split_ifs <;> push_cast <;> omega

theorem surplus_free {h : Heap γ} {p : Nat} {object : Object γ} (found : h.get p = some object)
    (last : object.refcount = 1) (q : Nat) :
    (h.set p none).surplus children q =
      h.surplus children q + (children object.contents).count q - if q = p then 1 else 0 := by
  have held := held_set children found none q
  simp only [references, Option.elim_none, List.count_nil] at held
  rw [surplus, surplus, ← refcount_free found last q]
  split_ifs <;> push_cast <;> omega

theorem surplus_release {fuel : Nat} {work : List Nat} {h next : Heap γ}
    (ok : release children fuel work h = .ok next) (q : Nat) :
    next.surplus children q = h.surplus children q - work.count q := by
  refine release_induction children (motive := fun work h =>
    next.surplus children q = h.surplus children q - work.count q) (by simp) ?_ ?_ ok
  · intro p rest h object found many later
    rw [later, surplus_decrement children found many, List.count_cons]
    simp only [beq_iff_eq, eq_comm (a := p)]
    split_ifs <;> push_cast <;> omega
  · intro p rest h object found last later
    rw [later, surplus_free children found last, List.count_append, List.count_cons]
    simp only [beq_iff_eq, eq_comm (a := p)]
    split_ifs <;> push_cast <;> omega

theorem get_isSome_of_surplus {h : Heap γ} {p : Nat} (positive : 0 < h.surplus children p) :
    ∃ object, h.get p = some object := by
  cases found : h.get p with
  | some object => exact ⟨object, rfl⟩
  | none =>
    rw [surplus, refcount, found, Option.elim_none] at positive
    omega

theorem release_returns {fuel : Nat} {work : List Nat} {h : Heap γ} (enough : h.total ≤ fuel)
    (covered : ∀ q, (work.count q : Int) ≤ h.surplus children q) :
    ∃ next, release children fuel work h = .ok next := by
  induction fuel generalizing work h with
  | zero =>
    cases work with
    | nil => exact ⟨h, rfl⟩
    | cons p rest =>
      have first := covered p
      rw [List.count_cons_self] at first
      obtain ⟨object, found⟩ := get_isSome_of_surplus children (p := p) (h := h) (by omega)
      have total := total_set found none
      have positive := object.positive
      rw [Option.elim_none] at total
      omega
  | succ fuel ih =>
    cases work with
    | nil => exact ⟨h, rfl⟩
    | cons p rest =>
      have first := covered p
      rw [List.count_cons_self] at first
      obtain ⟨object, found⟩ := get_isSome_of_surplus children (p := p) (h := h) (by omega)
      rw [release, found]
      dsimp only
      split_ifs with many
      · refine ih ?_ fun q => ?_
        · have total := total_set found (some { object with
            refcount := object.refcount - 1, positive := Nat.sub_pos_of_lt many })
          rw [Option.elim_some] at total
          dsimp only at total
          omega
        · have here := covered q
          rw [List.count_cons] at here
          rw [surplus_decrement children found many]
          simp only [beq_iff_eq, eq_comm (a := p)] at here
          split_ifs at here ⊢ <;> push_cast at here <;> omega
      · have last : object.refcount = 1 := le_antisymm (not_lt.mp many) object.positive
        refine ih ?_ fun q => ?_
        · have total := total_set found none
          rw [Option.elim_none] at total
          omega
        · have here := covered q
          rw [List.count_cons] at here
          rw [surplus_free children found last, List.count_append]
          simp only [beq_iff_eq, eq_comm (a := p)] at here
          push_cast
          split_ifs at here ⊢ <;> push_cast at here <;> omega

/-! ### What stays of the contents -/

/-- Below `base` the second heap holds nothing that the first does not. -/
structure Keeps (base : Nat) (h next : Heap γ) : Prop where
  size : h.size ≤ next.size
  contents : ∀ q < base, ∀ object, next.get q = some object →
    ∃ old, h.get q = some old ∧ old.contents = object.contents

/-- From `base` on an object refers to later ones only, or below `base`. -/
def Ordered (base : Nat) (h : Heap γ) : Prop :=
  ∀ q object, base ≤ q → h.get q = some object →
    ∀ c ∈ children object.contents, c < base ∨ q < c

theorem Keeps.refl (base : Nat) (h : Heap γ) : Keeps base h h :=
  ⟨le_rfl, fun _ _ object found => ⟨object, found, rfl⟩⟩

theorem Keeps.trans {base : Nat} {h next last : Heap γ} (first : Keeps base h next)
    (second : Keeps base next last) : Keeps base h last where
  size := first.size.trans second.size
  contents := by
    intro q below object found
    obtain ⟨middle, foundMiddle, same⟩ := second.contents q below object found
    obtain ⟨old, foundOld, before⟩ := first.contents q below middle foundMiddle
    exact ⟨old, foundOld, before.trans same⟩

theorem Keeps.mono {base lower : Nat} (le : lower ≤ base) {h next : Heap γ}
    (keeps : Keeps base h next) : Keeps lower h next :=
  ⟨keeps.size, fun q below => keeps.contents q (below.trans_le le)⟩

theorem keeps_alloc (h : Heap γ) (contents : γ) : Keeps h.size h (h.alloc contents) where
  size := by simp
  contents := fun q below object found =>
    ⟨object, (get_alloc_of_lt below contents).symm.trans found, rfl⟩

theorem keeps_set {h : Heap γ} {p : Nat} {old : Object γ} (found : h.get p = some old)
    {object : Option (Object γ)} (same : ∀ new ∈ object, old.contents = new.contents)
    (base : Nat) : Keeps base h (h.set p object) where
  size := (size_set h p object).ge
  contents := by
    intro q _ new here
    by_cases at_p : q = p
    · rw [at_p, get_set_self (lt_size_of_get found)] at here
      exact ⟨old, at_p ▸ found, same new here⟩
    · rw [get_set_of_ne h at_p] at here
      exact ⟨new, here, rfl⟩

theorem keeps_incref {h next : Heap γ} {p : Nat} (ok : h.incref p = .ok next) (base : Nat) :
    Keeps base h next ∧ next.size = h.size := by
  unfold incref at ok
  split at ok
  · next object found =>
    cases ok
    refine ⟨keeps_set found (fun new mem => ?_) base, size_set _ _ _⟩
    rw [← Option.mem_some.mp mem]
  · cases ok

theorem keeps_release {fuel : Nat} {work : List Nat} {h next : Heap γ}
    (ok : release children fuel work h = .ok next) (base : Nat) : Keeps base h next := by
  refine release_induction children (motive := fun _ h => Keeps base h next)
    (.refl base next) ?_ ?_ ok
  · intro p rest h object found many keeps
    refine (keeps_set found (fun new mem => ?_) base).trans keeps
    rw [← Option.mem_some.mp mem]
  · intro p rest h object found last keeps
    exact (keeps_set found (by simp) base).trans keeps

theorem Ordered.keeps {base : Nat} {h next : Heap γ} (ordered : h.Ordered children base)
    (keeps : Keeps next.size h next) : next.Ordered children base := by
  intro q object above found
  obtain ⟨old, here, same⟩ := keeps.contents q (lt_size_of_get found) object found
  rw [← same]
  exact ordered q old above here

theorem Ordered.alloc {base : Nat} {h : Heap γ} (ordered : h.Ordered children base)
    {contents : γ} (empty : children contents = []) :
    (h.alloc contents).Ordered children base := by
  intro q object above found
  have inside := lt_size_of_get found
  rw [size_alloc] at inside
  rcases lt_or_ge q h.size with old | fresh
  · rw [get_alloc_of_lt old] at found
    exact ordered q object above found
  · obtain rfl : q = h.size := by omega
    rw [get_alloc_self] at found
    rw [← Option.some.inj found]
    simp [empty]

theorem Ordered.update {base : Nat} {h : Heap γ} (ordered : h.Ordered children base) {p : Nat}
    {object : Object γ} (found : h.get p = some object) {contents : γ}
    (later : ∀ c ∈ children contents, c < base ∨ p < c) :
    (h.update p object contents).Ordered children base := by
  intro q new above here
  by_cases at_p : q = p
  · rw [at_p, Heap.update, get_set_self (lt_size_of_get found)] at here
    rw [← Option.some.inj here, at_p]
    exact later
  · rw [Heap.update, get_set_of_ne h at_p] at here
    exact ordered q new above here

theorem keeps_update (h : Heap γ) (p : Nat) (object : Object γ) (contents : γ) :
    Keeps p h (h.update p object contents) where
  size := (size_set h p _).ge
  contents := by
    intro q below new here
    rw [Heap.update, get_set_of_ne h below.ne] at here
    exact ⟨new, here, rfl⟩

theorem exists_holder {h : Heap γ} {p : Nat} (held : 0 < h.held children p) :
    ∃ q object, h.get q = some object ∧ p ∈ children object.contents := by
  obtain ⟨n, mem, positive⟩ := List.exists_mem_ne_zero_of_sum_ne_zero held.ne'
  obtain ⟨entry, member, rfl⟩ := List.mem_map.mp mem
  obtain ⟨q, found⟩ := List.mem_iff_getElem?.mp member
  cases entry with
  | none => exact absurd rfl positive
  | some object =>
    exact ⟨q, object, get_eq_some.mpr found, List.count_pos_iff.mp (Nat.pos_of_ne_zero positive)⟩

theorem get_none_of_surplus {h next : Heap γ} (closed : ∀ p, 0 ≤ h.surplus children p)
    (keeps : Keeps h.size h next) (ordered : next.Ordered children h.size)
    (same : ∀ p, next.surplus children p = h.surplus children p) (p : Nat) (new : h.size ≤ p) :
    next.get p = none := by
  have unheld : h.held children p = 0 := by
    have nonneg := closed p
    rw [surplus, refcount, get_of_size_le new, Option.elim_none] at nonneg
    omega
  induction p using Nat.strong_induction_on with
  | h p ih =>
    by_contra left
    obtain ⟨object, found⟩ := Option.ne_none_iff_exists'.mp left
    have positive := object.positive
    have balance := same p
    rw [surplus, surplus, refcount, refcount, found, get_of_size_le new, unheld, Option.elim_some,
      Option.elim_none] at balance
    obtain ⟨q, holder, foundHolder, member⟩ :=
      exists_holder children (h := next) (p := p) (by omega)
    rcases lt_or_ge q h.size with old | fresh
    · obtain ⟨before, foundBefore, contents⟩ := keeps.contents q old holder foundHolder
      have heldBefore := held_set children foundBefore none p
      rw [contents] at heldBefore
      have counted := List.count_pos_iff.mpr member
      simp only [references, Option.elim_none, List.count_nil] at heldBefore
      omega
    · rcases ordered q holder fresh foundHolder p member with below | earlier
      · omega
      · have gone := ih q earlier fresh ?_
        · exact absurd (foundHolder.symm.trans gone) (Option.some_ne_none holder)
        · have nonneg := closed q
          rw [surplus, refcount, get_of_size_le fresh, Option.elim_none] at nonneg
          omega

end Heap

end HyperionNg.Library.RefCount
