import HyperionNg.Types

/-! The effects the engine knows and the effects that run. An effect stays in
`_activeEffects` from its start until its finish is delivered; being aborted
is a flag on it. The JSON arguments of an effect decide nothing here. -/

namespace HyperionNg

structure EffectDefinition where
  name : String
  script : String
deriving DecidableEq

/-- `id` stands for the pointer to the effect. -/
structure Effect where
  id : Nat
  priority : Int
  timeout : Int
  script : String
  name : String
  abortRequested : Bool := false
deriving DecidableEq

def Effect.abort (e : Effect) : Effect := { e with abortRequested := true }

/-- `nextId` is the pointer the next allocation returns. -/
structure EffectEngine where
  availableEffects : List EffectDefinition
  activeEffects : List Effect := []
  nextId : Nat := 0
deriving DecidableEq

namespace EffectEngine

def channelCleared (e : EffectEngine) (priority : Int) : EffectEngine :=
  { e with activeEffects := e.activeEffects.map fun effect =>
      if effect.priority = priority then effect.abort else effect }

def allChannelsCleared (e : EffectEngine) : EffectEngine :=
  { e with activeEffects := e.activeEffects.map Effect.abort }

/-- `new Effect` and the push to `_activeEffects`. -/
def push (e : EffectEngine) (script name : String) (priority timeout : Int) : EffectEngine :=
  { e with
    activeEffects := e.activeEffects ++ [{ id := e.nextId, priority, timeout, script, name }]
    nextId := e.nextId + 1 }

def erase (e : EffectEngine) (id : Nat) : EffectEngine :=
  { e with activeEffects := e.activeEffects.eraseP (fun effect => effect.id = id) }

def find? (e : EffectEngine) (id : Nat) : Option Effect :=
  e.activeEffects.find? (fun effect => effect.id = id)

theorem mem_channelCleared (e : EffectEngine) (priority : Int) (effect : Effect) :
    effect ∈ (e.channelCleared priority).activeEffects ↔
      (effect ∈ e.activeEffects ∧ effect.priority ≠ priority) ∨
      ∃ old ∈ e.activeEffects, old.priority = priority ∧ effect = old.abort := by
  simp only [channelCleared, List.mem_map]
  constructor
  · rintro ⟨old, hold, rfl⟩
    split_ifs with hp
    · exact Or.inr ⟨old, hold, hp, rfl⟩
    · exact Or.inl ⟨hold, hp⟩
  · rintro (⟨hold, hp⟩ | ⟨old, hold, hp, rfl⟩)
    · exact ⟨effect, hold, if_neg hp⟩
    · exact ⟨old, hold, if_pos hp⟩

private theorem mem_allChannelsCleared (e : EffectEngine) (effect : Effect) :
    effect ∈ e.allChannelsCleared.activeEffects ↔ ∃ old ∈ e.activeEffects, effect = old.abort := by
  simp [allChannelsCleared, eq_comm]

theorem mem_push (e : EffectEngine) (script name : String) (priority timeout : Int)
    (effect : Effect) :
    effect ∈ (e.push script name priority timeout).activeEffects ↔
      effect ∈ e.activeEffects ∨ effect = { id := e.nextId, priority, timeout, script, name } := by
  simp [push]

@[simp] theorem channelCleared_nextId (e : EffectEngine) (priority : Int) :
    (e.channelCleared priority).nextId = e.nextId := rfl

@[simp] theorem allChannelsCleared_nextId (e : EffectEngine) :
    e.allChannelsCleared.nextId = e.nextId := rfl

@[simp] theorem erase_nextId (e : EffectEngine) (id : Nat) : (e.erase id).nextId = e.nextId := rfl

def ids (e : EffectEngine) : List Nat := e.activeEffects.map Effect.id

@[simp] theorem channelCleared_ids (e : EffectEngine) (priority : Int) :
    (e.channelCleared priority).ids = e.ids := by
  simp only [ids, channelCleared, List.map_map]
  refine List.map_congr_left fun effect _ => ?_
  simp only [Function.comp]
  split_ifs <;> rfl

@[simp] theorem allChannelsCleared_ids (e : EffectEngine) : e.allChannelsCleared.ids = e.ids := by
  simp only [ids, allChannelsCleared, List.map_map]
  rfl

structure Allocated (e : EffectEngine) : Prop where
  nodup : e.ids.Nodup
  fresh : ∀ id ∈ e.ids, id < e.nextId

theorem eraseP_eq_filter (effects : List Effect) (id : Nat)
    (nodup : (effects.map Effect.id).Nodup) :
    effects.eraseP (fun effect => effect.id = id) =
      effects.filter (fun effect => !decide (effect.id = id)) := by
  induction effects with
  | nil => rfl
  | cons a rest ih =>
    obtain ⟨ha, hrest⟩ := List.nodup_cons.mp nodup
    by_cases hid : a.id = id
    · have keepAll : rest.filter (fun effect => !decide (effect.id = id)) = rest := by
        refine List.filter_eq_self.mpr fun b hb => ?_
        have : b.id ≠ id := fun hbid => ha ((hid.trans hbid.symm) ▸ List.mem_map_of_mem hb)
        simpa using this
      simp [hid, keepAll]
    · simp [hid, ih hrest]

theorem Allocated.mem_erase {e : EffectEngine} (alloc : e.Allocated) (id : Nat) (effect : Effect) :
    effect ∈ (e.erase id).activeEffects ↔ effect ∈ e.activeEffects ∧ effect.id ≠ id := by
  simp [EffectEngine.erase, eraseP_eq_filter e.activeEffects id alloc.nodup]

theorem Allocated.find?_eq_some_iff {e : EffectEngine} (alloc : e.Allocated) (id : Nat)
    (effect : Effect) : e.find? id = some effect ↔ effect ∈ e.activeEffects ∧ effect.id = id := by
  constructor
  · intro h
    exact ⟨List.mem_of_find?_eq_some h, by simpa using List.find?_some h⟩
  · rintro ⟨hmem, rfl⟩
    cases hf : e.find? effect.id with
    | none => simpa using List.find?_eq_none.mp hf effect hmem
    | some other =>
      have hid : other.id = effect.id := by simpa using List.find?_some hf
      rw [List.inj_on_of_nodup_map alloc.nodup (List.mem_of_find?_eq_some hf) hmem hid]

theorem Allocated.channelCleared {e : EffectEngine} (alloc : e.Allocated) (priority : Int) :
    (e.channelCleared priority).Allocated :=
  ⟨by simpa using alloc.nodup, by simpa using alloc.fresh⟩

theorem Allocated.allChannelsCleared {e : EffectEngine} (alloc : e.Allocated) :
    e.allChannelsCleared.Allocated :=
  ⟨by simpa using alloc.nodup, by simpa using alloc.fresh⟩

theorem Allocated.push {e : EffectEngine} (alloc : e.Allocated) (script name : String)
    (priority timeout : Int) : (e.push script name priority timeout).Allocated where
  nodup := by
    have : e.nextId ∉ e.ids := fun h => lt_irrefl _ (alloc.fresh _ h)
    simpa [ids, EffectEngine.push, List.nodup_append] using ⟨alloc.nodup, fun x hx hid =>
      this (hid ▸ List.mem_map_of_mem hx)⟩
  fresh id hid := by
    have : id ∈ e.ids ∨ id = e.nextId := by simpa [ids, EffectEngine.push] using hid
    rcases this with h | rfl
    · exact Nat.lt_succ_of_lt (alloc.fresh id h)
    · exact Nat.lt_succ_self _

theorem Allocated.erase {e : EffectEngine} (alloc : e.Allocated) (id : Nat) :
    (e.erase id).Allocated where
  nodup := alloc.nodup.sublist ((List.eraseP_sublist).map Effect.id)
  fresh i hi := alloc.fresh i (((List.eraseP_sublist).map Effect.id).subset hi)

/-- Of two listed effects on one priority, one is aborted. -/
def Exclusive (e : EffectEngine) : Prop :=
  e.activeEffects.Pairwise fun a b =>
    a.priority = b.priority → a.abortRequested = true ∨ b.abortRequested = true

def AbortedOn (e : EffectEngine) (priority : Int) : Prop :=
  ∀ effect ∈ e.activeEffects, effect.priority = priority → effect.abortRequested = true

theorem channelCleared_abortedOn (e : EffectEngine) (priority : Int) :
    (e.channelCleared priority).AbortedOn priority := by
  intro effect hmem hp
  rcases (mem_channelCleared e priority effect).mp hmem with ⟨_, hne⟩ | ⟨old, _, _, rfl⟩
  · exact absurd hp hne
  · rfl

theorem allChannelsCleared_aborted (e : EffectEngine) :
    ∀ effect ∈ e.allChannelsCleared.activeEffects, effect.abortRequested = true := by
  intro effect hmem
  obtain ⟨old, _, rfl⟩ := (mem_allChannelsCleared e effect).mp hmem
  rfl

theorem Exclusive.channelCleared {e : EffectEngine} (excl : e.Exclusive) (priority : Int) :
    (e.channelCleared priority).Exclusive := by
  refine List.Pairwise.map _ (fun a b hab => ?_) excl
  split_ifs <;> simp_all [Effect.abort]

theorem Exclusive.allChannelsCleared {e : EffectEngine} (excl : e.Exclusive) :
    e.allChannelsCleared.Exclusive :=
  List.Pairwise.map _ (fun _ _ _ _ => Or.inl rfl) excl

theorem Exclusive.push {e : EffectEngine} (excl : e.Exclusive) (script name : String)
    {priority : Int} (timeout : Int) (aborted : e.AbortedOn priority) :
    (e.push script name priority timeout).Exclusive := by
  refine List.pairwise_append.mpr ⟨excl, List.pairwise_singleton _ _, fun a ha b hb hp => ?_⟩
  rw [List.mem_singleton.mp hb] at hp
  exact Or.inl (aborted a ha hp)

theorem Exclusive.erase {e : EffectEngine} (excl : e.Exclusive) (id : Nat) :
    (e.erase id).Exclusive :=
  excl.sublist List.eraseP_sublist

theorem Exclusive.others_aborted {e : EffectEngine} (excl : e.Exclusive) {effect other : Effect}
    (mem : effect ∈ e.activeEffects) (running : effect.abortRequested = false)
    (hother : other ∈ e.activeEffects) (hid : other.id ≠ effect.id)
    (hp : other.priority = effect.priority) : other.abortRequested = true := by
  have symm : Std.Symm fun a b : Effect =>
      a.priority = b.priority → a.abortRequested = true ∨ b.abortRequested = true :=
    ⟨fun a b h hp => (h hp.symm).symm⟩
  have hne : effect ≠ other := fun h => hid (congrArg Effect.id h).symm
  have := List.Pairwise.forall excl mem hother hne hp.symm
  simpa [running] using this

theorem channelCleared_erase {e : EffectEngine} (alloc : e.Allocated) (excl : e.Exclusive)
    {effect : Effect} (mem : effect ∈ e.activeEffects) (running : effect.abortRequested = false) :
    (e.channelCleared effect.priority).erase effect.id = e.erase effect.id := by
  have keeps : ((e.channelCleared effect.priority).activeEffects.filter
      fun other => !decide (other.id = effect.id)) =
      e.activeEffects.filter fun other => !decide (other.id = effect.id) := by
    rw [EffectEngine.channelCleared, List.filter_map]
    have same : ((fun other : Effect => !decide (other.id = effect.id)) ∘ fun other =>
        if other.priority = effect.priority then other.abort else other) =
        fun other => !decide (other.id = effect.id) := by
      funext other
      simp only [Function.comp]
      split_ifs <;> rfl
    rw [same]
    refine (List.map_congr_left fun other hmem => ?_).trans (List.map_id _)
    obtain ⟨hother, hid⟩ := List.mem_filter.mp hmem
    split_ifs with hp
    · have haborted := excl.others_aborted mem running hother (by simpa using hid) hp
      rw [Effect.abort, ← haborted]
      rfl
    · rfl
  rw [EffectEngine.erase, EffectEngine.erase, eraseP_eq_filter _ _ alloc.nodup,
    eraseP_eq_filter _ _ (alloc.channelCleared _).nodup, keeps]
  rfl

def Runs (e : EffectEngine) (id : Nat) (name : String) (priority : Int) : Prop :=
  ∃ effect ∈ e.activeEffects, effect.id = id ∧ effect.name = name ∧ effect.priority = priority

theorem channelCleared_runs (e : EffectEngine) (p : Int) (id : Nat) (name : String)
    (priority : Int) : (e.channelCleared p).Runs id name priority ↔ e.Runs id name priority := by
  simp only [Runs, EffectEngine.channelCleared, List.mem_map, exists_exists_and_eq_and]
  refine exists_congr fun effect => and_congr_right fun _ => ?_
  split_ifs <;> rfl

theorem allChannelsCleared_runs (e : EffectEngine) (id : Nat) (name : String) (priority : Int) :
    e.allChannelsCleared.Runs id name priority ↔ e.Runs id name priority := by
  simp only [Runs, EffectEngine.allChannelsCleared, List.mem_map, exists_exists_and_eq_and]
  exact Iff.rfl

theorem push_runs (e : EffectEngine) (script name' : String) (priority' timeout : Int) (id : Nat)
    (name : String) (priority : Int) :
    (e.push script name' priority' timeout).Runs id name priority ↔
      e.Runs id name priority ∨ (e.nextId = id ∧ name' = name ∧ priority' = priority) := by
  simp only [Runs, mem_push, or_and_right, exists_or, exists_eq_left]

theorem Allocated.erase_runs {e : EffectEngine} (alloc : e.Allocated) (gone id : Nat)
    (name : String) (priority : Int) :
    (e.erase gone).Runs id name priority ↔ e.Runs id name priority ∧ id ≠ gone := by
  simp only [Runs, alloc.mem_erase]
  constructor
  · rintro ⟨effect, ⟨hmem, hne⟩, rfl, rfl, rfl⟩
    exact ⟨⟨effect, hmem, rfl, rfl, rfl⟩, hne⟩
  · rintro ⟨⟨effect, hmem, rfl, rfl, rfl⟩, hne⟩
    exact ⟨effect, ⟨hmem, hne⟩, rfl, rfl, rfl⟩

def Running (e : EffectEngine) (id : Nat) (priority : Int) : Prop :=
  ∃ effect ∈ e.activeEffects,
    effect.id = id ∧ effect.priority = priority ∧ effect.abortRequested = false

theorem channelCleared_running (e : EffectEngine) (p : Int) (id : Nat) (priority : Int) :
    (e.channelCleared p).Running id priority ↔ e.Running id priority ∧ priority ≠ p := by
  constructor
  · rintro ⟨effect, hmem, rfl, rfl, running⟩
    rcases (mem_channelCleared e p effect).mp hmem with ⟨hold, hp⟩ | ⟨old, _, _, rfl⟩
    · exact ⟨⟨effect, hold, rfl, rfl, running⟩, hp⟩
    · simp [Effect.abort] at running
  · rintro ⟨⟨effect, hmem, rfl, rfl, running⟩, hp⟩
    exact ⟨effect, (mem_channelCleared e p effect).mpr (Or.inl ⟨hmem, hp⟩), rfl, rfl, running⟩

theorem push_running (e : EffectEngine) (script name : String) (p timeout : Int) (id : Nat)
    (priority : Int) :
    (e.push script name p timeout).Running id priority ↔
      e.Running id priority ∨ (e.nextId = id ∧ p = priority) := by
  simp only [Running, mem_push, or_and_right, exists_or, exists_eq_left, and_true]

theorem Allocated.erase_running {e : EffectEngine} (alloc : e.Allocated) (gone id : Nat)
    (priority : Int) :
    (e.erase gone).Running id priority ↔ e.Running id priority ∧ id ≠ gone := by
  simp only [Running, alloc.mem_erase]
  constructor
  · rintro ⟨effect, ⟨hmem, hne⟩, rfl, rfl, running⟩
    exact ⟨⟨effect, hmem, rfl, rfl, running⟩, hne⟩
  · rintro ⟨⟨effect, hmem, rfl, rfl, running⟩, hne⟩
    exact ⟨effect, ⟨hmem, hne⟩, rfl, rfl, running⟩

def Below (e : EffectEngine) (bound : Int) : Prop :=
  ∀ effect ∈ e.activeEffects, effect.priority < bound

theorem Below.channelCleared {e : EffectEngine} {bound : Int} (below : e.Below bound)
    (priority : Int) : (e.channelCleared priority).Below bound := by
  intro effect hmem
  rcases (mem_channelCleared e priority effect).mp hmem with ⟨hold, _⟩ | ⟨old, hold, _, rfl⟩
  · exact below effect hold
  · exact below old hold

theorem Below.allChannelsCleared {e : EffectEngine} {bound : Int} (below : e.Below bound) :
    e.allChannelsCleared.Below bound := by
  intro effect hmem
  obtain ⟨old, hold, rfl⟩ := (mem_allChannelsCleared e effect).mp hmem
  exact below old hold

theorem Below.push {e : EffectEngine} {bound : Int} (below : e.Below bound) (script name : String)
    {priority : Int} (timeout : Int) (hp : priority < bound) :
    (e.push script name priority timeout).Below bound := by
  intro effect hmem
  rcases (mem_push e script name priority timeout effect).mp hmem with hold | rfl
  · exact below effect hold
  · exact hp

theorem Below.erase {e : EffectEngine} {bound : Int} (below : e.Below bound) (id : Nat) :
    (e.erase id).Below bound :=
  fun effect hmem => below effect (List.mem_of_mem_eraseP hmem)

end EffectEngine

end HyperionNg
