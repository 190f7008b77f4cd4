import HyperionNg.PriorityMuxer

/-! The cached priority against the map, over every run of muxer calls.
`WellFormed` holds in every state. That the cached priority names an active
channel does not: it is lost exactly when every channel up to the fallback
expires, or when the last channel is cleared. -/

namespace HyperionNg.PriorityMuxer

open Library Library.Execution

structure WellFormed (m : PriorityMuxer) : Prop where
  keyed : ∀ k info, m.activeInputs.find? k = some info → info.priority = k
  fallback : m.lowestPriorityInfo.priority = lowestPriority
  least : ∀ k, m.activeInputs.contains k = true → m.currentPriority ≤ k
  cached : m.activeInputs.contains m.currentPriority = true ∨ m.currentPriority = lowestPriority

def CurrentActive (m : PriorityMuxer) : Prop :=
  m.activeInputs.contains m.currentPriority = true

theorem contains_of_find? {m : PriorityMuxer} {k : Int} {info : InputInfo}
    (h : m.activeInputs.find? k = some info) : m.activeInputs.contains k = true := by
  simp [SortedMap.contains, h]

theorem new_find? (ledCount : Nat) (k : Int) :
    (new ledCount).activeInputs.find? k =
      if k = lowestPriority then some (new ledCount).lowestPriorityInfo else none := by
  simp only [new, SortedMap.find?_insert, SortedMap.find?_empty]

theorem new_currentActive (ledCount : Nat) : (new ledCount).CurrentActive := by
  simp [CurrentActive, new, SortedMap.contains_insert]

theorem new_wellFormed (ledCount : Nat) : (new ledCount).WellFormed where
  keyed k info h := by
    rw [new_find?] at h
    split_ifs at h with hk
    rw [← Option.some.inj h, hk]
    rfl
  fallback := rfl
  least k hk := by
    have : k = lowestPriority := by
      by_contra hne
      simp [SortedMap.contains, new_find?, hne] at hk
    exact le_of_eq this.symm
  cached := Or.inl (new_currentActive ledCount)

theorem WellFormed.setInput {m : PriorityMuxer} (wf : m.WellFormed) (p : Int)
    (colors : List ColorRgb) (timeout : Int) (component : Components) :
    (m.setInput p colors timeout component).WellFormed where
  keyed k info h := by
    rw [setInput_find?] at h
    split_ifs at h with hk
    · rw [← Option.some.inj h, hk]
    · exact wf.keyed k info h
  fallback := wf.fallback
  least k hk := by
    rw [PriorityMuxer.setInput, SortedMap.contains_insert] at hk
    rcases Bool.or_eq_true_iff.mp hk with hkp | hold
    · exact (min_le_right _ _).trans (le_of_eq (of_decide_eq_true hkp).symm)
    · exact (min_le_left _ _).trans (wf.least k hold)
  cached := by
    simp only [PriorityMuxer.setInput, SortedMap.contains_insert]
    rcases min_choice m.currentPriority p with h | h
    · rw [h]
      exact wf.cached.imp (fun hc => by simp [hc]) id
    · simp [h]

theorem WellFormed.clearInput {m t : PriorityMuxer} (wf : m.WellFormed) {p : Int}
    (h : m.clearInput p = .ok t) : t.WellFormed where
  keyed k info hk := by
    rw [clearInput_find? h] at hk
    split_ifs at hk
    exact wf.keyed k info hk
  fallback := clearInput_lowestPriorityInfo h ▸ wf.fallback
  least k hk := by
    rcases clearInput_cases h with ⟨_, rfl⟩ | ⟨_, _, rfl⟩ | ⟨_, _, key, hkey, rfl⟩
    · exact wf.least k hk
    · rw [SortedMap.contains_erase, Bool.and_eq_true] at hk
      exact wf.least k hk.2
    · exact hkey.2 hk
  cached := by
    rcases clearInput_cases h with ⟨_, rfl⟩ | ⟨_, hne, rfl⟩ | ⟨_, _, key, hkey, rfl⟩
    · exact wf.cached
    · refine wf.cached.imp (fun hc => ?_) id
      simpa [SortedMap.contains_erase, hne] using hc
    · exact Or.inl hkey.1

theorem WellFormed.clearAll {m : PriorityMuxer} (wf : m.WellFormed) : m.clearAll.WellFormed where
  keyed k info h := by
    rw [clearAll_find?] at h
    split_ifs at h with hk
    rw [← Option.some.inj h, hk, wf.fallback]
  fallback := wf.fallback
  least k hk := by
    have : k = lowestPriority := by
      by_contra hne
      simp [SortedMap.contains, hne] at hk
    exact le_of_eq this.symm
  cached := Or.inr rfl

theorem WellFormed.setCurrentTime_isLeast {m : PriorityMuxer} (wf : m.WellFormed) (now : Int) :
    IsLeast ({lowestPriority} ∪ {k | (m.setCurrentTime now).activeInputs.contains k = true})
      (m.setCurrentTime now).currentPriority := by
  rw [setCurrentTime_eq]
  have prio : ∀ e ∈ (m.activeInputs.filter (fun e => !e.2.expired now)).entries,
      e.2.priority = e.1 := fun e he =>
    wf.keyed e.1 e.2
      ((SortedMap.find?_eq_some_iff _ _ _).mpr ((SortedMap.mem_filter _ _ _).mp he).1)
  have visited : {k | ∃ e ∈ (m.activeInputs.filter (fun e => !e.2.expired now)).entries,
      e.2.priority = k} =
      {k | (m.activeInputs.filter (fun e => !e.2.expired now)).contains k = true} := by
    ext k
    rw [Set.mem_ofPred_eq, Set.mem_ofPred_eq, SortedMap.contains_iff]
    constructor
    · rintro ⟨⟨j, info⟩, he, rfl⟩
      have : info.priority = j := prio _ he
      exact ⟨info, this ▸ he⟩
    · rintro ⟨info, he⟩
      exact ⟨(k, info), he, prio _ he⟩
  exact visited ▸ isLeast_foldl_min (fun e : Int × InputInfo => e.2.priority) _ lowestPriority

theorem WellFormed.setCurrentTime {m : PriorityMuxer} (wf : m.WellFormed) (now : Int) :
    (m.setCurrentTime now).WellFormed where
  keyed k info h := by
    rw [setCurrentTime_find?, Option.filter_eq_some_iff] at h
    exact wf.keyed k info h.1
  fallback := by simpa using wf.fallback
  least k hk := (wf.setCurrentTime_isLeast now).2 (Or.inr hk)
  cached := (wf.setCurrentTime_isLeast now).1.elim Or.inr Or.inl

/-- No channel expires at the time `now`. -/
def Unexpired (m : PriorityMuxer) (now : Int) : Prop :=
  ∀ k info, m.activeInputs.find? k = some info → info.expired now = false

instance (m : PriorityMuxer) (now : Int) : Decidable (m.Unexpired now) :=
  decidable_of_iff (∀ e ∈ m.activeInputs.entries, e.2.expired now = false) <| by
    simp only [Unexpired, SortedMap.find?_eq_some_iff, Prod.forall]

theorem WellFormed.setCurrentTime_eq_self_iff {m : PriorityMuxer} (wf : m.WellFormed) (now : Int) :
    m.setCurrentTime now = m ↔ m.Unexpired now ∧ m.currentPriority ≤ lowestPriority := by
  constructor
  · intro same
    refine ⟨fun k info hinfo => ?_, ?_⟩
    · rw [← same, setCurrentTime_find?, Option.filter_eq_some_iff] at hinfo
      simpa using hinfo.2
    · exact same ▸ (wf.setCurrentTime_isLeast now).2 (Or.inl rfl)
  · rintro ⟨none_expires, bound⟩
    have kept : (m.setCurrentTime now).activeInputs = m.activeInputs := by
      refine SortedMap.ext_find? fun k => ?_
      rw [setCurrentTime_find?]
      cases hk : m.activeInputs.find? k with
      | none => rfl
      | some info => simp [none_expires k info hk]
    have least : IsLeast ({lowestPriority} ∪ {k | m.activeInputs.contains k = true})
        m.currentPriority := by
      refine ⟨wf.cached.elim Or.inr Or.inl, fun k hk => ?_⟩
      rcases hk with rfl | hactive
      · exact bound
      · exact wf.least k hactive
    have current : (m.setCurrentTime now).currentPriority = m.currentPriority :=
      (wf.setCurrentTime_isLeast now).unique (kept ▸ least)
    rw [setCurrentTime_eq] at kept current ⊢
    exact congr (congrArg PriorityMuxer.mk current) kept ▸ rfl

theorem WellFormed.step {m t : PriorityMuxer} (wf : m.WellFormed) {op : Op}
    (h : m.step op = .ok t) : t.WellFormed := by
  cases op with
  | setInput p colors timeout component =>
    exact Except.ok.inj h ▸ wf.setInput p colors timeout component
  | clearInput p => exact wf.clearInput h
  | clearAll => exact Except.ok.inj h ▸ wf.clearAll
  | setCurrentTime now => exact Except.ok.inj h ▸ wf.setCurrentTime now

theorem reachable_wellFormed {ledCount : Nat} {ops : List Op} {m : PriorityMuxer}
    (run : Reaches PriorityMuxer.step (new ledCount) ops m) : m.WellFormed :=
  run.invariant (fun _ _ _ wf h => wf.step h) (new_wellFormed ledCount)

theorem setCurrentTime_contains (m : PriorityMuxer) (now k : Int) :
    (m.setCurrentTime now).activeInputs.contains k = true ↔
      ∃ info, m.activeInputs.find? k = some info ∧ info.expired now = false := by
  simp only [SortedMap.contains, Option.isSome_iff_exists, setCurrentTime_find?,
    Option.filter_eq_some_iff, Bool.not_eq_true']

/-- The calls that leave the cached priority on an active channel: an expiry
pass must leave some channel up to the fallback priority, and clearing the
current channel must leave some other channel. -/
def Sustains (m : PriorityMuxer) : Op → Prop
  | .setInput .. => True
  | .clearInput p => p < lowestPriority → p = m.currentPriority →
      ∃ k, k ≠ p ∧ m.activeInputs.contains k = true
  | .clearAll => True
  | .setCurrentTime now => ∃ k ≤ lowestPriority, ∃ info,
      m.activeInputs.find? k = some info ∧ info.expired now = false

theorem setInput_currentActive {m : PriorityMuxer} (active : m.CurrentActive) (p : Int)
    (colors : List ColorRgb) (timeout : Int) (component : Components) :
    (m.setInput p colors timeout component).CurrentActive := by
  simp only [CurrentActive, setInput, SortedMap.contains_insert]
  rcases min_choice m.currentPriority p with h | h
  · rw [h, show m.activeInputs.contains m.currentPriority = true from active, Bool.or_true]
  · simp [h]

theorem clearAll_currentActive (m : PriorityMuxer) : m.clearAll.CurrentActive := by
  simp [CurrentActive, clearAll, SortedMap.contains_insert]

theorem setCurrentTime_currentActive_iff {m : PriorityMuxer} (wf : m.WellFormed) (now : Int) :
    (m.setCurrentTime now).CurrentActive ↔ m.Sustains (.setCurrentTime now) := by
  obtain ⟨hmem, hle⟩ := wf.setCurrentTime_isLeast now
  simp only [Sustains, CurrentActive, ← setCurrentTime_contains]
  constructor
  · intro h
    exact ⟨_, hle (Or.inl rfl), h⟩
  · rintro ⟨k, hk, hactive⟩
    rcases hmem with hfallback | hactive
    · -- the pass ended on the fallback, so the surviving channel is the fallback itself
      have hge := hle (Or.inr hactive)
      have : k = lowestPriority := le_antisymm hk (hfallback ▸ hge)
      rwa [show (m.setCurrentTime now).currentPriority = lowestPriority from hfallback, ← this]
    · exact hactive

theorem clearInput_currentActive_iff {m : PriorityMuxer} (active : m.CurrentActive) (p : Int) :
    (∃ t, m.clearInput p = .ok t ∧ t.CurrentActive) ↔ m.Sustains (.clearInput p) := by
  constructor
  · rintro ⟨t, ht, hactive⟩ hp hcur
    rcases clearInput_cases ht with ⟨hge, _⟩ | ⟨_, hne, _⟩ | ⟨_, _, key, hkey, _⟩
    · exact absurd hp (not_lt.mpr hge)
    · exact absurd hcur.symm hne
    · have := hkey.1
      rw [Set.mem_ofPred_eq, SortedMap.contains_erase, Bool.and_eq_true] at this
      exact ⟨key, of_decide_eq_true this.1, this.2⟩
  · intro h
    by_cases hp : p < lowestPriority
    · by_cases hcur : m.currentPriority = p
      · obtain ⟨k, hk, hactive⟩ := h hp hcur.symm
        obtain ⟨least, hleast⟩ := (exists_leastKey_iff (m.activeInputs.erase p)).mpr
          ⟨k, by simp [SortedMap.contains_erase, hk, hactive]⟩
        refine ⟨_, by simp only [clearInput, hp, hcur, if_true, hleast, Except.map]; rfl, ?_⟩
        exact ((leastKey_eq_ok_iff _ _).mp hleast).1
      · refine ⟨_, by simp only [clearInput, hp, hcur, if_true, if_false]; rfl, ?_⟩
        simpa [CurrentActive, SortedMap.contains_erase, hcur] using active
    · exact ⟨m, by simp only [clearInput, hp, if_false], active⟩

theorem step_currentActive_iff {m : PriorityMuxer} (wf : m.WellFormed)
    (active : m.CurrentActive) (op : Op) :
    m.Sustains op ↔ ∃ t, m.step op = .ok t ∧ t.CurrentActive := by
  cases op with
  | setInput p colors timeout component =>
    exact ⟨fun _ => ⟨_, rfl, setInput_currentActive active p colors timeout component⟩,
      fun _ => trivial⟩
  | clearInput p => exact (clearInput_currentActive_iff active p).symm
  | clearAll => exact ⟨fun _ => ⟨_, rfl, clearAll_currentActive m⟩, fun _ => trivial⟩
  | setCurrentTime now =>
    rw [← setCurrentTime_currentActive_iff wf now]
    exact ⟨fun h => ⟨_, rfl, h⟩, fun ⟨t, ht, h⟩ => Except.ok.inj ht ▸ h⟩

/-- What `Hyperion::update` relies on: the current priority is a key, and
reading its channel returns. -/
def Readable (m : PriorityMuxer) : Prop :=
  m.CurrentActive ∧ ∃ info, m.getInputInfo m.currentPriority = .ok info

theorem readable_iff (m : PriorityMuxer) : m.Readable ↔ m.CurrentActive := by
  rw [Readable, getInputInfo_returns_iff]
  exact and_self_iff

/-- A run stays readable, and never dereferences the least key of an empty
map, exactly when every call sustains the current priority. -/
theorem always_readable_iff (ledCount : Nat) (ops : List Op) :
    Always step Readable (new ledCount) ops ↔ Along step Sustains (new ledCount) ops := by
  refine always_iff_along (fun _ _ _ wf h => WellFormed.step wf h) (fun m op wf readable => ?_)
    (new_wellFormed ledCount) ((readable_iff _).mpr (new_currentActive ledCount))
  simp only [readable_iff] at *
  exact step_currentActive_iff wf readable op

/-- Re-setting the fallback channel with a timeout loses it: afterwards the
current priority has no channel, and clearing the last channel finds no key. -/
theorem timed_fallback_not_readable :
    ¬ Always step Readable (new 1)
      [.setInput 255 [⟨9, 9, 9⟩] 1000 .color, .setCurrentTime 1000] ∧
    ¬ Always step Readable (new 1)
      [.setInput 255 [⟨9, 9, 9⟩] 1000 .color, .setInput 1 [⟨9, 9, 9⟩] (-1) .color,
        .setCurrentTime 1000, .clearInput 1] := by
  constructor
  · rintro ⟨_, m₁, h₁, _, m₂, h₂, readable⟩
    cases h₁
    cases h₂
    have lost :
        (((new 1).setInput 255 [⟨9, 9, 9⟩] 1000 .color).setCurrentTime 1000).activeInputs.contains
        255 = false := by decide
    exact Bool.false_ne_true (lost.symm.trans readable.1)
  · rintro ⟨_, m₁, h₁, _, m₂, h₂, _, m₃, h₃, _, m₄, h₄, _⟩
    cases h₁
    cases h₂
    cases h₃
    have undefined : ((((new 1).setInput 255 [⟨9, 9, 9⟩] 1000 .color).setInput 1 [⟨9, 9, 9⟩] (-1)
        .color).setCurrentTime 1000).clearInput 1 = .error .undefinedBehaviour := by decide
    exact absurd (undefined.symm.trans h₄) (by simp)

def Op.KeepsFallback : Op → Prop
  | .setInput p _ timeout _ => p = lowestPriority → timeout = -1
  | _ => True

/-- The fallback channel is there, and neither it nor the entry a `clearAll`
restores ever expires. -/
structure FallbackKept (m : PriorityMuxer) : Prop where
  restored : m.lowestPriorityInfo.timeoutTimeMs = -1
  active : ∃ info, m.activeInputs.find? lowestPriority = some info ∧ info.timeoutTimeMs = -1

theorem new_fallbackKept (ledCount : Nat) : (new ledCount).FallbackKept :=
  ⟨rfl, _, by rw [new_find?, if_pos rfl], rfl⟩

theorem not_expired_of_no_timeout {info : InputInfo} (h : info.timeoutTimeMs = -1) (now : Int) :
    info.expired now = false := by
  simp [InputInfo.expired, h]

theorem FallbackKept.step {m t : PriorityMuxer} (kept : m.FallbackKept) {op : Op}
    (keeps : op.KeepsFallback) (h : m.step op = .ok t) : t.FallbackKept := by
  obtain ⟨info, hinfo, hnever⟩ := kept.active
  cases op with
  | setInput p colors timeout component =>
    obtain rfl := Except.ok.inj h
    refine ⟨kept.restored, ?_⟩
    rw [setInput_find?]
    split_ifs with hp
    · exact ⟨_, rfl, keeps hp.symm⟩
    · exact ⟨info, hinfo, hnever⟩
  | clearInput p =>
    refine ⟨clearInput_lowestPriorityInfo h ▸ kept.restored, info, ?_, hnever⟩
    rw [clearInput_find? h, if_neg (fun hp => absurd hp.2 (by omega))]
    exact hinfo
  | clearAll =>
    obtain rfl := Except.ok.inj h
    exact ⟨kept.restored, _, by rw [clearAll_find?, if_pos rfl], kept.restored⟩
  | setCurrentTime now =>
    obtain rfl := Except.ok.inj h
    refine ⟨by simpa using kept.restored, info, ?_, hnever⟩
    rw [setCurrentTime_find?, hinfo]
    simp [not_expired_of_no_timeout hnever now]

theorem FallbackKept.sustains {m : PriorityMuxer} (kept : m.FallbackKept) (op : Op) :
    m.Sustains op := by
  obtain ⟨info, hinfo, hnever⟩ := kept.active
  cases op with
  | setInput p colors timeout component => trivial
  | clearInput p =>
    intro hp _
    exact ⟨lowestPriority, ne_of_gt hp, contains_of_find? hinfo⟩
  | clearAll => trivial
  | setCurrentTime now =>
    exact ⟨lowestPriority, le_rfl, info, hinfo, not_expired_of_no_timeout hnever now⟩

/-- Without a timeout on the fallback channel every run meets the condition of
`Sustains` at every call. -/
theorem along_sustains_of_keepsFallback (ledCount : Nat) (ops : List Op)
    (keeps : ∀ op ∈ ops, op.KeepsFallback) : Along step Sustains (new ledCount) ops :=
  along_of_forall (fun _ _ _ kept hop h => FallbackKept.step kept hop h)
    (fun _ op kept _ => kept.sustains op) (new_fallbackKept ledCount) keeps

end HyperionNg.PriorityMuxer
