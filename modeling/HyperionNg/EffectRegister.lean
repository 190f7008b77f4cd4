import HyperionNg.Hyperion

/-! The effects and the register of source names over every run of calls. On
each priority at most one listed effect is not aborted. The register follows
the listed effects only while no name is listed twice when one of them
finishes: a start inserts if absent, a finish removes by name. -/

namespace HyperionNg.Hyperion

open Library Library.Execution

theorem clearChannel_sameEffects {h t : Hyperion} {p : Int} {clock : Nat → Int}
    (ends : Ends (h.clearChannel p clock) t) :
    t.effectEngine = h.effectEngine ∧ t.priorityRegister = h.priorityRegister := by
  rcases clearChannel_ends ends with rfl | ⟨muxer, _, u, selected, ends⟩
  · exact ⟨rfl, rfl⟩
  · have same : u.effectEngine = h.effectEngine ∧ u.priorityRegister = h.priorityRegister := by
      rcases selected with rfl | selected
      · exact ⟨rfl, rfl⟩
      · exact (update_ends selected).sameEffects
    rcases ends with rfl | ends
    · exact same
    · obtain ⟨hengine, hregister⟩ := (update_ends ends).sameEffects
      exact ⟨hengine.trans same.1, hregister.trans same.2⟩

theorem clear_ends_effects {h t : Hyperion} {p : Int} {clock : Nat → Int}
    (ends : Ends (h.clear p clock) t) :
    t.priorityRegister = h.priorityRegister ∧
      (t.effectEngine = h.effectEngine ∨
        (h.clear p clock = .ok t ∧ t.effectEngine = h.effectEngine.channelCleared p)) := by
  obtain ⟨u, reached, rest⟩ := clear_ends ends
  have same : u.effectEngine = h.effectEngine ∧ u.priorityRegister = h.priorityRegister := by
    rcases reached with rfl | reached
    · exact ⟨rfl, rfl⟩
    · exact clearChannel_sameEffects reached
  rcases rest with rfl | ⟨ok, rfl⟩
  · exact ⟨same.2, Or.inl same.1⟩
  · exact ⟨same.2, Or.inr ⟨ok, congrArg (EffectEngine.channelCleared · p) same.1⟩⟩

theorem clear_ok_effects {h t : Hyperion} {p : Int} {clock : Nat → Int}
    (ok : h.clear p clock = .ok t) :
    t.effectEngine = h.effectEngine.channelCleared p ∧
      t.priorityRegister = h.priorityRegister := by
  obtain ⟨u, hu, ht⟩ := bind_eq_ok.mp ok
  have same : u.effectEngine = h.effectEngine ∧ u.priorityRegister = h.priorityRegister := by
    rcases ends_optionally (Or.inl hu) with ⟨_, hu⟩ | ⟨_, rfl⟩
    · exact clearChannel_sameEffects hu
    · exact ⟨rfl, rfl⟩
  rw [← Except.ok.inj ht]
  exact ⟨congrArg (EffectEngine.channelCleared · p) same.1, same.2⟩

theorem setColors_ends_effects {h t : Hyperion} {p : Int} {ledColors : List ColorRgb}
    {timeout : Int} {clearEffects : Bool} {component : Components} {clock : Nat → Int}
    (ends : Ends (h.setColors p ledColors timeout clearEffects component clock) t) :
    t.priorityRegister = h.priorityRegister ∧
      t.effectEngine =
        if clearEffects then h.effectEngine.channelCleared p else h.effectEngine := by
  rcases setColors_ends ends with rfl | ends
  · exact ⟨rfl, rfl⟩
  · exact (update_ends ends).sameEffects.symm

theorem clearall_ends_effects {h t : Hyperion} {clock : Nat → Int}
    (ends : Ends (h.clearall clock) t) :
    t.priorityRegister = h.priorityRegister ∧
      (t.effectEngine = h.effectEngine ∨ t.effectEngine = h.effectEngine.allChannelsCleared) := by
  obtain ⟨u, selected, rest⟩ := clearall_ends ends
  have first := (update_ends selected).sameEffects
  rcases rest with rfl | ⟨v, rendered, rest⟩
  · exact ⟨first.2, Or.inl first.1⟩
  · have second := (update_ends rendered).sameEffects
    rcases rest with rfl | rfl
    · exact ⟨second.2.trans first.2, Or.inl (second.1.trans first.1)⟩
    · exact ⟨second.2.trans first.2,
        Or.inr (congrArg EffectEngine.allChannelsCleared (second.1.trans first.1))⟩

theorem clearall_ok_effects {h t : Hyperion} {clock : Nat → Int} (ok : h.clearall clock = .ok t) :
    t.effectEngine = h.effectEngine.allChannelsCleared := by
  obtain ⟨u, hu, hrest⟩ := bind_eq_ok.mp ok
  obtain ⟨v, hv, ht⟩ := bind_eq_ok.mp hrest
  have first := (setSourceAutoSelectEnabled_true_ends (Or.inl hu)).sameEffects
  have second := (update_ends (Or.inl hv)).sameEffects
  rw [← Except.ok.inj ht]
  exact congrArg EffectEngine.allChannelsCleared (second.1.trans first.1)

theorem effectFinished_ok_effects {h t : Hyperion} {id : Nat} {clock : Nat → Int}
    (ok : h.effectFinished id clock = .ok t) :
    (h.effectEngine.find? id = none ∧ t = h) ∨
    ∃ effect, h.effectEngine.find? id = some effect ∧
      t.priorityRegister = h.priorityRegister.erase effect.name ∧
      t.effectEngine = if effect.abortRequested then h.effectEngine.erase id
        else (h.effectEngine.channelCleared effect.priority).erase id := by
  rcases effectFinished_ok ok with absent | ⟨effect, found, u, cleared, rfl⟩
  · exact Or.inl absent
  · refine Or.inr ⟨effect, found, ?_⟩
    rcases cleared with ⟨haborted, rfl⟩ | ⟨hrunning, cleared⟩
    · rw [if_pos haborted]
      exact ⟨rfl, rfl⟩
    · obtain ⟨hengine, hregister⟩ := clear_ok_effects cleared
      simp only [hengine, hregister, hrunning, Bool.false_eq_true, if_false]
      exact ⟨trivial, trivial⟩

def knowsEffect (h : Hyperion) (effectName pythonScript : String) : Bool :=
  pythonScript ≠ "" || h.effectEngine.availableEffects.any (fun e => e.name = effectName)

theorem runEffect_effects (h : Hyperion) (name : String) (p timeout : Int) (script : String) :
    (h.knowsEffect name script = true ∧ ∃ file,
      (h.runEffect name p timeout script).1 = h.runEffectScript file name p timeout) ∨
    (h.knowsEffect name script = false ∧ (h.runEffect name p timeout script).1 = h) := by
  unfold runEffect knowsEffect
  by_cases hs : script = ""
  · cases hf : h.effectEngine.availableEffects.find? (fun e => e.name = name) with
    | none =>
      refine Or.inr ⟨?_, by simp [hs]⟩
      have := List.find?_eq_none.mp hf
      simpa [hs] using this
    | some e =>
      refine Or.inl ⟨?_, e.script, by simp [hs]⟩
      have hname : e.name = name := by simpa using List.find?_some hf
      simp only [Bool.or_eq_true, List.any_eq_true]
      exact Or.inr ⟨e, List.mem_of_find?_eq_some hf, by simpa using hname⟩
  · exact Or.inl ⟨by simp [hs], script, by simp [hs]⟩

def QuietOnEffects (h t : Hyperion) : Prop :=
  t.priorityRegister = h.priorityRegister ∧
    (t.effectEngine = h.effectEngine ∨ (∃ p, t.effectEngine = h.effectEngine.channelCleared p) ∨
      t.effectEngine = h.effectEngine.allChannelsCleared)

theorem stepCaught_effects {h t : Hyperion} {call : Call} (step : h.stepCaught call = .ok t) :
    match call.op with
    | .runEffect name p timeout script =>
        (h.knowsEffect name script = true ∧ ∃ file, t = h.runEffectScript file name p timeout) ∨
        (h.knowsEffect name script = false ∧ t = h)
    | .effectFinished id =>
        (h.effectEngine.find? id = none ∧ t = h) ∨
        ∃ effect, h.effectEngine.find? id = some effect ∧
          t.priorityRegister = h.priorityRegister.erase effect.name ∧
          t.effectEngine = if effect.abortRequested then h.effectEngine.erase id
            else (h.effectEngine.channelCleared effect.priority).erase id
    | _ => h.QuietOnEffects t := by
  obtain ⟨ends, returns⟩ := stepCaught_ends step
  rcases call with ⟨op, clock⟩
  have colors : ∀ {p : Int} {ledColors : List ColorRgb} {timeout : Int} {clearEffects : Bool}
      {component : Components},
      Ends (h.setColors p ledColors timeout clearEffects component clock) t →
      h.QuietOnEffects t := by
    intro p ledColors timeout clearEffects component ends
    obtain ⟨hregister, hengine⟩ := setColors_ends_effects ends
    refine ⟨hregister, ?_⟩
    split_ifs at hengine
    · exact Or.inr (Or.inl ⟨p, hengine⟩)
    · exact Or.inl hengine
  cases op with
  | setColor p color timeout clearEffects => exact colors ends
  | setColors p ledColors timeout clearEffects component => exact colors ends
  | clear p =>
    obtain ⟨hregister, hengine⟩ := clear_ends_effects ends
    exact ⟨hregister, hengine.imp id fun h => Or.inl ⟨p, h.2⟩⟩
  | clearall =>
    obtain ⟨hregister, hengine⟩ := clearall_ends_effects ends
    exact ⟨hregister, hengine.imp id Or.inr⟩
  | setSourceAutoSelectEnabled enabled =>
    obtain ⟨_, _, updates⟩ := setSourceAutoSelectEnabled_ends ends
    exact ⟨updates.sameEffects.2, Or.inl updates.sameEffects.1⟩
  | setCurrentSourcePriority p =>
    rw [← ends_ok.mp ends, setCurrentSourcePriority]
    split_ifs
    · exact ⟨rfl, Or.inl rfl⟩
    · exact ⟨rfl, Or.inl rfl⟩
  | runEffect name p timeout script =>
    have ht := ends_ok.mp ends
    rcases runEffect_effects h name p timeout script with ⟨known, file, hrun⟩ | ⟨unknown, hrun⟩
    · exact Or.inl ⟨known, file, ht.symm.trans hrun⟩
    · exact Or.inr ⟨unknown, ht.symm.trans hrun⟩
  | effectFinished id => exact effectFinished_ok_effects (returns rfl)
  | update =>
    exact ⟨(update_ends ends).sameEffects.2, Or.inl (update_ends ends).sameEffects.1⟩

structure EffectsKept (h : Hyperion) : Prop where
  alloc : h.effectEngine.Allocated
  exclusive : h.effectEngine.Exclusive

theorem new_effects {std : IndexSort} {config : HyperionConfig} {source now timerNow : Int}
    {h : Hyperion} (constructed : new std config source now timerNow = .ok h) :
    h.effectEngine = { availableEffects := config.effects } ∧
      h.priorityRegister = SortedMap.empty.emplace "Off" PriorityMuxer.lowestPriority := by
  obtain ⟨_, _, rendered⟩ := (new_eq_ok_iff _ _ _ _ _ _).mp constructed
  exact (update_ends (Or.inl rendered)).sameEffects

theorem new_effectsKept {std : IndexSort} {config : HyperionConfig} {source now timerNow : Int}
    {h : Hyperion} (constructed : new std config source now timerNow = .ok h) : h.EffectsKept := by
  constructor <;> rw [(new_effects constructed).1]
  · exact ⟨List.nodup_nil, by simp [EffectEngine.ids]⟩
  · exact List.Pairwise.nil

theorem EffectsKept.finish {h : Hyperion} (kept : h.EffectsKept) {id : Nat} {effect : Effect}
    (found : h.effectEngine.find? id = some effect) :
    (if effect.abortRequested then h.effectEngine.erase id
      else (h.effectEngine.channelCleared effect.priority).erase id) = h.effectEngine.erase id := by
  obtain ⟨hmem, rfl⟩ := (kept.alloc.find?_eq_some_iff id effect).mp found
  split_ifs with haborted
  · rfl
  · exact EffectEngine.channelCleared_erase kept.alloc kept.exclusive hmem (by simpa using haborted)

theorem EffectsKept.quiet {h t : Hyperion} (kept : h.EffectsKept) (quiet : h.QuietOnEffects t) :
    t.EffectsKept := by
  rcases quiet.2 with same | ⟨p, cleared⟩ | cleared
  · exact ⟨same ▸ kept.alloc, same ▸ kept.exclusive⟩
  · exact ⟨cleared ▸ kept.alloc.channelCleared p, cleared ▸ kept.exclusive.channelCleared p⟩
  · exact ⟨cleared ▸ kept.alloc.allChannelsCleared, cleared ▸ kept.exclusive.allChannelsCleared⟩

theorem EffectsKept.step {h t : Hyperion} (kept : h.EffectsKept) {call : Call}
    (step : h.stepCaught call = .ok t) : t.EffectsKept := by
  have effects := stepCaught_effects step
  rcases call with ⟨op, clock⟩
  cases op with
  | runEffect name p timeout script =>
    rcases effects with ⟨_, file, rfl⟩ | ⟨_, rfl⟩
    · exact ⟨(kept.alloc.channelCleared p).push file name p timeout,
        (kept.exclusive.channelCleared p).push file name timeout
          (EffectEngine.channelCleared_abortedOn _ p)⟩
    · exact kept
  | effectFinished id =>
    rcases effects with ⟨_, rfl⟩ | ⟨effect, found, _, hengine⟩
    · exact kept
    · rw [kept.finish found] at hengine
      exact ⟨hengine ▸ kept.alloc.erase id, hengine ▸ kept.exclusive.erase id⟩
  | setColor p color timeout clearEffects => exact kept.quiet effects
  | setColors p ledColors timeout clearEffects component => exact kept.quiet effects
  | clear p => exact kept.quiet effects
  | clearall => exact kept.quiet effects
  | setSourceAutoSelectEnabled enabled => exact kept.quiet effects
  | setCurrentSourcePriority p => exact kept.quiet effects
  | update => exact kept.quiet effects

def restarted : List Call :=
  [⟨.runEffect "Snake" 5 0 "snake.py", fun _ => 0⟩,
    ⟨.runEffect "Snake" 5 0 "snake.py", fun _ => 0⟩, ⟨.effectFinished 0, fun _ => 0⟩]

/-- Every listed effect's name is registered at the priority of an effect of
that name, and every registered name but the constructor's own is that of a
listed effect. -/
def RegisterAgrees (h : Hyperion) : Prop :=
  (∀ id name p, h.effectEngine.Runs id name p →
    ∃ i q, h.effectEngine.Runs i name q ∧ h.priorityRegister.find? name = some q) ∧
  ∀ name, h.priorityRegister.contains name = true → name ≠ "Off" →
    ∃ i q, h.effectEngine.Runs i name q

/-- An effect starts under a name that no other source registered at another
priority, and finishes as the last one of its name. -/
def KeepsRegister (h : Hyperion) (call : Call) : Prop :=
  match call.op with
  | .runEffect name p _ script => h.knowsEffect name script = true →
      ∀ v, h.priorityRegister.find? name = some v →
        (∃ i q, h.effectEngine.Runs i name q) ∨ v = p
  | .effectFinished id => ∀ effect, h.effectEngine.find? id = some effect →
      ∀ i q, h.effectEngine.Runs i effect.name q → i = id
  | _ => True

private theorem registerAgrees_congr {h t : Hyperion}
    (runs : ∀ id name p, t.effectEngine.Runs id name p ↔ h.effectEngine.Runs id name p)
    (register : t.priorityRegister = h.priorityRegister) :
    t.RegisterAgrees ↔ h.RegisterAgrees := by
  simp only [RegisterAgrees, runs, register]

theorem QuietOnEffects.runs {h t : Hyperion} (quiet : h.QuietOnEffects t) (id : Nat)
    (name : String) (p : Int) :
    t.effectEngine.Runs id name p ↔ h.effectEngine.Runs id name p := by
  rcases quiet.2 with same | ⟨q, cleared⟩ | cleared
  · rw [same]
  · rw [cleared, EffectEngine.channelCleared_runs]
  · rw [cleared, EffectEngine.allChannelsCleared_runs]

theorem runEffectScript_effectEngine (h : Hyperion) (file name : String) (p timeout : Int) :
    (h.runEffectScript file name p timeout).effectEngine =
      (h.effectEngine.channelCleared p).push file name p timeout := rfl

theorem runEffectScript_runs (h : Hyperion) (file name' : String) (p' timeout : Int) (id : Nat)
    (name : String) (p : Int) :
    (h.runEffectScript file name' p' timeout).effectEngine.Runs id name p ↔
      h.effectEngine.Runs id name p ∨ (h.effectEngine.nextId = id ∧ name' = name ∧ p' = p) := by
  rw [runEffectScript_effectEngine, EffectEngine.push_runs, EffectEngine.channelCleared_runs,
    EffectEngine.channelCleared_nextId]

theorem runEffectScript_registerAgrees_iff {h : Hyperion} (agrees : h.RegisterAgrees)
    (file name : String) (p timeout : Int) :
    (h.runEffectScript file name p timeout).RegisterAgrees ↔
      ∀ v, h.priorityRegister.find? name = some v →
        (∃ i q, h.effectEngine.Runs i name q) ∨ v = p := by
  have register : ∀ k, (h.runEffectScript file name p timeout).priorityRegister.find? k =
      (h.priorityRegister.emplace name p).find? k := fun _ => rfl
  have started : (h.runEffectScript file name p timeout).effectEngine.Runs
      h.effectEngine.nextId name p := (runEffectScript_runs _ _ _ _ _ _ _ _).mpr
    (Or.inr ⟨rfl, rfl, rfl⟩)
  constructor
  · rintro ⟨listed, _⟩ v hv
    obtain ⟨i, q, hruns, hq⟩ := listed _ _ _ started
    have hvq : v = q := by
      rw [register, SortedMap.find?_emplace] at hq
      simp_all
    rcases (runEffectScript_runs _ _ _ _ _ _ _ _).mp hruns with old | ⟨_, _, hp⟩
    · exact Or.inl ⟨i, q, old⟩
    · exact Or.inr (hvq.trans hp.symm)
  · intro cond
    refine ⟨fun id other q hruns => ?_, fun other hcontains hoff => ?_⟩
    · simp only [register, SortedMap.find?_emplace]
      by_cases hname : other = name
      · subst hname
        simp only [if_true]
        cases hv : h.priorityRegister.find? other with
        | none => exact ⟨_, p, started, rfl⟩
        | some v =>
          rcases cond v hv with ⟨i, q', old⟩ | rfl
          · obtain ⟨j, r, hr, hfind⟩ := agrees.1 i other q' old
            have hvr : v = r := Option.some.inj (hv.symm.trans hfind)
            exact ⟨j, r, (runEffectScript_runs _ _ _ _ _ _ _ _).mpr (Or.inl hr),
              congrArg some hvr⟩
          · exact ⟨_, v, started, rfl⟩
      · simp only [hname, if_false]
        rcases (runEffectScript_runs _ _ _ _ _ _ _ _).mp hruns with old | ⟨_, hsame, _⟩
        · obtain ⟨j, r, hr, hfind⟩ := agrees.1 id other q old
          exact ⟨j, r, (runEffectScript_runs _ _ _ _ _ _ _ _).mpr (Or.inl hr), hfind⟩
        · exact absurd hsame.symm hname
    · by_cases hname : other = name
      · subst hname
        exact ⟨_, p, started⟩
      · have hold : h.priorityRegister.contains other = true := by
          simpa [SortedMap.contains, register, SortedMap.find?_emplace, hname] using hcontains
        obtain ⟨i, q, hr⟩ := agrees.2 other hold hoff
        exact ⟨i, q, (runEffectScript_runs _ _ _ _ _ _ _ _).mpr (Or.inl hr)⟩

theorem finished_registerAgrees_iff {h t : Hyperion} (kept : h.EffectsKept)
    (agrees : h.RegisterAgrees) {id : Nat} {effect : Effect}
    (found : h.effectEngine.find? id = some effect)
    (register : t.priorityRegister = h.priorityRegister.erase effect.name)
    (engine : t.effectEngine = h.effectEngine.erase id) :
    t.RegisterAgrees ↔ ∀ i q, h.effectEngine.Runs i effect.name q → i = id := by
  have runs : ∀ i name q, t.effectEngine.Runs i name q ↔ h.effectEngine.Runs i name q ∧ i ≠ id :=
    fun i name q => by rw [engine, kept.alloc.erase_runs]
  obtain ⟨hmem, hid⟩ := (kept.alloc.find?_eq_some_iff id effect).mp found
  have self : ∀ name q, h.effectEngine.Runs id name q → name = effect.name := by
    rintro name q ⟨other, hother, hoid, rfl, _⟩
    rw [List.inj_on_of_nodup_map kept.alloc.nodup hother hmem (hoid.trans hid.symm)]
  simp only [RegisterAgrees, runs, register, SortedMap.find?_erase, SortedMap.contains_erase]
  constructor
  · rintro ⟨listed, _⟩ i q hruns
    by_contra hne
    obtain ⟨_, _, _, hfind⟩ := listed i effect.name q ⟨hruns, hne⟩
    simp at hfind
  · intro last
    refine ⟨fun i name q ⟨hruns, hne⟩ => ?_, fun name hcontains hoff => ?_⟩
    · have hname : name ≠ effect.name := fun h => hne (last i q (h ▸ hruns))
      obtain ⟨j, r, hr, hfind⟩ := agrees.1 i name q hruns
      have hj : j ≠ id := fun h => hname (self name r (h ▸ hr))
      exact ⟨j, r, ⟨hr, hj⟩, by rw [if_neg hname, hfind]⟩
    · obtain ⟨hname, hcontains⟩ : name ≠ effect.name ∧ h.priorityRegister.contains name = true := by
        simpa using hcontains
      obtain ⟨i, q, hr⟩ := agrees.2 name hcontains hoff
      exact ⟨i, q, hr, fun h => hname (self name q (h ▸ hr))⟩

theorem stepCaught_registerAgrees_iff {h t : Hyperion} {call : Call} (kept : h.EffectsKept)
    (agrees : h.RegisterAgrees) (step : h.stepCaught call = .ok t) :
    t.RegisterAgrees ↔ h.KeepsRegister call := by
  have effects := stepCaught_effects step
  rcases call with ⟨op, clock⟩
  have quiet : h.QuietOnEffects t → (t.RegisterAgrees ↔ True) := fun quiet =>
    iff_of_true ((registerAgrees_congr quiet.runs quiet.1).mpr agrees) trivial
  cases op with
  | runEffect name p timeout script =>
    rcases effects with ⟨known, file, rfl⟩ | ⟨unknown, rfl⟩
    · simp only [KeepsRegister, known, forall_const]
      exact runEffectScript_registerAgrees_iff agrees file name p timeout
    · simp only [KeepsRegister, unknown, Bool.false_eq_true, false_imp_iff]
      exact iff_of_true agrees trivial
  | effectFinished id =>
    rcases effects with ⟨absent, rfl⟩ | ⟨effect, found, register, hengine⟩
    · simp only [KeepsRegister, absent, reduceCtorEq, false_imp_iff, implies_true]
      exact iff_of_true agrees trivial
    · rw [kept.finish found] at hengine
      simp only [KeepsRegister, found, Option.some.injEq, forall_eq']
      exact finished_registerAgrees_iff kept agrees found register hengine
  | setColor p color timeout clearEffects => exact quiet effects
  | setColors p ledColors timeout clearEffects component => exact quiet effects
  | clear p => exact quiet effects
  | clearall => exact quiet effects
  | setSourceAutoSelectEnabled enabled => exact quiet effects
  | setCurrentSourcePriority p => exact quiet effects
  | update => exact quiet effects

/-- The register agrees with the listed effects after every call of a run
exactly when every call that returns keeps it. -/
theorem registerAgrees_throughout_iff {std : IndexSort} {config : HyperionConfig}
    {source now timerNow : Int} {h₀ : Hyperion}
    (constructed : new std config source now timerNow = .ok h₀) (calls : List Call) :
    Throughout stepCaught RegisterAgrees h₀ calls ↔
      Along stepCaught (fun h call => ∀ t, h.stepCaught call = .ok t → h.KeepsRegister call)
        h₀ calls := by
  refine throughout_iff_along (fun _ _ _ kept step => EffectsKept.step kept step)
    (fun h call t kept agrees step => stepCaught_registerAgrees_iff kept agrees step)
    (new_effectsKept constructed) ?_
  obtain ⟨engine, register⟩ := new_effects constructed
  refine ⟨fun id name p => ?_, fun name hcontains hoff => ?_⟩
  · rw [engine]
    rintro ⟨effect, hmem, _⟩
    simp at hmem
  · rw [register, SortedMap.contains, SortedMap.find?_emplace, if_neg hoff] at hcontains
    simp [SortedMap.find?_empty] at hcontains

theorem registerAgrees_throughout_start : ∃ h₀ : Hyperion,
    new .stable (.ofLeds [{ index := 0 }]) 0 0 0 = .ok h₀ ∧
    (Throughout stepCaught RegisterAgrees h₀ [⟨.runEffect "Snake" 5 0 "snake.py", fun _ => 0⟩] ↔
      Along stepCaught (fun h call => ∀ t, h.stepCaught call = .ok t → h.KeepsRegister call)
        h₀ [⟨.runEffect "Snake" 5 0 "snake.py", fun _ => 0⟩]) := by
  have returns : evaluates stepCaught (new .stable (.ofLeds [{ index := 0 }]) 0 0 0) []
      (fun _ => true) = true := by decide +kernel
  obtain ⟨h₀, _, constructed, _⟩ := exists_of_evaluates returns
  exact ⟨h₀, constructed, registerAgrees_throughout_iff constructed _⟩

/-- An effect restarted on its channel loses its entry when the old run's
finish is delivered. -/
theorem restarted_effect_unregistered : ∃ h₀ : Hyperion,
    new .stable (.ofLeds [{ index := 0 }]) 0 0 0 = .ok h₀ ∧
    ¬ Throughout stepCaught RegisterAgrees h₀ restarted := by
  have lost : evaluates stepCaught (new .stable (.ofLeds [{ index := 0 }]) 0 0 0) restarted
      (fun h => h.effectEngine.activeEffects.any (fun effect => effect.name = "Snake") &&
        h.priorityRegister.find? "Snake" = none) = true := by decide +kernel
  obtain ⟨h₀, h, constructed, run, ended⟩ := exists_of_evaluates lost
  obtain ⟨running, unregistered⟩ := Bool.and_eq_true_iff.mp ended
  obtain ⟨effect, hmem, hname⟩ := List.any_eq_true.mp running
  refine ⟨h₀, constructed, fun throughout => ?_⟩
  obtain ⟨_, _, _, hfind⟩ := (throughout.reaches run).1 effect.id "Snake" effect.priority
    ⟨effect, hmem, rfl, of_decide_eq_true hname, rfl⟩
  rw [of_decide_eq_true unregistered] at hfind
  simp at hfind

end HyperionNg.Hyperion
