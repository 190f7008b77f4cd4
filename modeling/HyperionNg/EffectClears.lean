import HyperionNg.EffectRegister
import HyperionNg.PriorityMuxerInvariant

/-! When a clear reaches the effects. `clear` renders what is left before it tells
the effect engine, so an update that throws leaves the effects of the channel
running, and the connection that catches the exception goes on. -/

namespace HyperionNg

open Library Library.Execution

namespace Hyperion

variable {h t : Hyperion}

/-- An update at `now` finds its channel, and a frame can be built of its colours. -/
def Renders (h : Hyperion) (now : Int) : Prop :=
  ∃ info, (h.setCurrentTime now).muxer.activeInputs.find?
      (h.setCurrentTime now).getCurrentPriority = some info ∧
    ∃ orders, h.colorOrders = .ok orders ∧
      ∃ ledBuffer, buildFrame h.ledStringClone orders h.hwLedCount info.ledColors = .ok ledBuffer

theorem update_returns_iff (h : Hyperion) (now timerNow : Int) :
    (∃ t, h.update now timerNow = .ok t) ↔ h.Renders now := by
  constructor
  · rintro ⟨t, ok⟩
    obtain ⟨info, _, _, orders, _, found, computed, built, _⟩ := update_ok ok
    exact ⟨info, found, orders, computed,
      buildFrame_ok_of_length _ (channelColors_length _ _ _) built⟩
  · rintro ⟨info, found, orders, computed, _, built⟩
    obtain ⟨raw2led, prev, selected⟩ := selectBacklight_eq (h.setCurrentTime now)
      (h.setCurrentTime now).getCurrentPriority info.componentId
    obtain ⟨frame, adjusted⟩ := buildFrame_ok_of_length
      (channelColors raw2led (h.setCurrentTime now).getCurrentPriority info.ledColors)
      (channelColors_length _ _ _).symm built
    exact ⟨_, (update_eq_ok_iff _ _ _ _).mpr
      ⟨info, found, _, selected, orders, computed, frame, adjusted, rfl⟩⟩

theorem colorOrders_stored {orders : List ColorOrder} (computed : h.colorOrders = .ok orders) :
    colorOrders { h with ledStringColorOrder := orders } = h.colorOrders := by
  rw [computed]
  unfold colorOrders at computed ⊢
  split_ifs with empty
  · split_ifs at computed with held
    · exact computed
    · exact absurd (Except.ok.inj computed ▸ empty) held
  · rfl

theorem update_colorOrders {now timerNow : Int} (ends : Ends (h.update now timerNow) t) :
    t.colorOrders = h.colorOrders := by
  rcases ends_raise_bind ends with rfl | ⟨info, _, ends⟩
  · rfl
  · obtain ⟨adjustment, prev, selected⟩ := selectBacklight_eq (h.setCurrentTime now)
      (h.setCurrentTime now).getCurrentPriority info.componentId
    rw [selected] at ends
    rcases ends_raise_bind ends with rfl | ⟨orders, computed, ends⟩
    · rfl
    · have stored := colorOrders_stored computed
      rcases ends_raise_bind ends with rfl | ⟨frame, _, ends⟩
      · exact stored
      · rw [← ends_pure.mp ends]
        exact stored

theorem update_ok_renders {now timerNow : Int} (ok : h.update now timerNow = .ok t)
    (later : Int) : t.Renders later ↔ (h.setCurrentTime now).Renders later := by
  have orders := update_colorOrders (Or.inl ok)
  obtain ⟨_, _, _, _, _, rfl⟩ := update_ends (Or.inl ok)
  unfold Renders
  rw [orders]
  exact Iff.rfl

/-- The core after `clear` has taken the channel out of the muxer and ended its
selection by hand. -/
def withoutChannel (h : Hyperion) (muxer : PriorityMuxer) (p now : Int) : Hyperion :=
  if h.sourceAutoSelectEnabled = false ∧ h.currentSourcePriority = p then
    { h with muxer := muxer.setCurrentTime now, sourceAutoSelectEnabled := true }
  else { h with muxer }

def ClearRenders (h : Hyperion) (p : Int) (clock : Nat → Int) : Prop :=
  h.muxer.hasPriority p = true → ∃ muxer, h.muxer.clearInput p = .ok muxer ∧
    (h.sourceAutoSelectEnabled = false ∧ h.currentSourcePriority = p →
      Renders { h with muxer, sourceAutoSelectEnabled := true } (clock 0)) ∧
    (p < (h.withoutChannel muxer p (clock 0)).muxer.currentPriority →
      (h.withoutChannel muxer p (clock 0)).Renders (clock 2))

theorem deselect_returns_iff (h : Hyperion) (muxer : PriorityMuxer) (p now timerNow : Int)
    (P : Hyperion → Prop)
    (same : ∀ u, (h.withoutChannel muxer p now).muxer = u.muxer →
      (∀ later, u.Renders later ↔ (h.withoutChannel muxer p now).Renders later) →
      (P u ↔ P (h.withoutChannel muxer p now))) :
    (∃ u, optionally (!h.sourceAutoSelectEnabled && decide (h.currentSourcePriority = p))
        (·.setSourceAutoSelectEnabled true now timerNow) { h with muxer } = .ok u ∧ P u) ↔
      (h.sourceAutoSelectEnabled = false ∧ h.currentSourcePriority = p →
        Renders { h with muxer, sourceAutoSelectEnabled := true } now) ∧
      P (h.withoutChannel muxer p now) := by
  by_cases selected : h.sourceAutoSelectEnabled = false ∧ h.currentSourcePriority = p
  · have condition :
        (!h.sourceAutoSelectEnabled && decide (h.currentSourcePriority = p)) = true := by
      simp [selected]
    have reached : ∀ u, update { h with muxer, sourceAutoSelectEnabled := true } now timerNow =
        .ok u → (P u ↔ P (h.withoutChannel muxer p now)) := by
      intro u ok
      refine same u ?_ fun later => ?_
      · rw [update_ok_muxer ok, withoutChannel, if_pos selected]
      · rw [update_ok_renders ok, withoutChannel, if_pos selected]
        rfl
    rw [condition]
    constructor
    · rintro ⟨u, ok, holds⟩
      exact ⟨fun _ => (update_returns_iff _ now timerNow).mp ⟨u, ok⟩, (reached u ok).mp holds⟩
    · rintro ⟨renders, holds⟩
      obtain ⟨u, ok⟩ := (update_returns_iff _ now timerNow).mpr (renders selected)
      exact ⟨u, ok, (reached u ok).mpr holds⟩
  · have condition :
        (!h.sourceAutoSelectEnabled && decide (h.currentSourcePriority = p)) = false := by
      simpa using selected
    have stays : h.withoutChannel muxer p now = { h with muxer } := if_neg selected
    rw [condition, stays]
    simp [selected]

theorem clear_returns_iff (h : Hyperion) (p : Int) (clock : Nat → Int) :
    (∃ t, h.clear p clock = .ok t) ↔ h.ClearRenders p clock := by
  have told : (∃ t, h.clear p clock = .ok t) ↔
      ∃ u, optionally (h.muxer.hasPriority p) (·.clearChannel p clock) h = .ok u := by
    constructor
    · rintro ⟨t, ok⟩
      obtain ⟨u, reached, _⟩ := bind_eq_ok.mp ok
      exact ⟨u, reached⟩
    · rintro ⟨u, reached⟩
      exact ⟨_, bind_eq_ok.mpr ⟨u, reached, rfl⟩⟩
  rw [told, ClearRenders]
  cases h.muxer.hasPriority p with
  | false => simp
  | true =>
    simp only [optionally_true, true_imp_iff]
    have rendered : ∀ u : Hyperion, (∃ v, optionally (p < u.muxer.currentPriority)
        (·.update (clock 2) (clock 3)) u = .ok v) ↔
        (p < u.muxer.currentPriority → u.Renders (clock 2)) := by
      intro u
      by_cases below : p < u.muxer.currentPriority
      · rw [decide_eq_true below, forall_prop_of_true below]
        exact update_returns_iff u (clock 2) (clock 3)
      · simp [below]
    have channel : (∃ t, h.clearChannel p clock = .ok t) ↔
        ∃ muxer, h.muxer.clearInput p = .ok muxer ∧ ∃ u,
          optionally (!h.sourceAutoSelectEnabled && decide (h.currentSourcePriority = p))
            (·.setSourceAutoSelectEnabled true (clock 0) (clock 1)) { h with muxer } = .ok u ∧
          ∃ v, optionally (p < u.muxer.currentPriority) (·.update (clock 2) (clock 3)) u =
            .ok v := by
      simp only [clearChannel, bind_eq_ok, raise_eq_ok]
      constructor
      · rintro ⟨t, muxer, cleared, u, selected, done⟩
        exact ⟨muxer, cleared, u, selected, t, done⟩
      · rintro ⟨muxer, cleared, u, selected, t, done⟩
        exact ⟨t, muxer, cleared, u, selected, done⟩
    rw [channel]
    refine exists_congr fun muxer => and_congr_right fun _ => ?_
    simp only [rendered]
    exact deselect_returns_iff h muxer p (clock 0) (clock 1)
      (fun u => p < u.muxer.currentPriority → u.Renders (clock 2))
      fun u same renders => by rw [same, renders]

/-- The entry that `clearall` restores can be rendered. -/
structure FallbackRenders (h : Hyperion) : Prop where
  wellFormed : h.muxer.WellFormed
  timeout : h.muxer.lowestPriorityInfo.timeoutTimeMs = -1
  builds : ∃ orders, h.colorOrders = .ok orders ∧ ∃ ledBuffer,
    buildFrame h.ledStringClone orders h.hwLedCount h.muxer.lowestPriorityInfo.ledColors =
      .ok ledBuffer

theorem FallbackRenders.update (fallback : h.FallbackRenders) {now timerNow : Int}
    (ends : Ends (h.update now timerNow) t) : t.FallbackRenders := by
  have orders := update_colorOrders ends
  obtain ⟨_, _, _, _, _, rfl⟩ := update_ends ends
  have lowest := PriorityMuxer.setCurrentTime_lowestPriorityInfo h.muxer now
  refine ⟨fallback.wellFormed.setCurrentTime now, ?_, ?_⟩
  · exact (congrArg InputInfo.timeoutTimeMs lowest).trans fallback.timeout
  · rw [orders, lowest]
    exact fallback.builds

theorem FallbackRenders.step (fallback : h.FallbackRenders) {call : Call}
    (ok : h.stepCaught call = .ok t) : t.FallbackRenders := by
  refine step_invariant (fun _ _ _ _ fallback ends => fallback.update ends)
    (fun h muxer _ _ _ _ replaced fallback => ?_) fallback (stepCaught_ends ok).1
  rcases replaced with rfl | ⟨op, stepped⟩
  · exact ⟨fallback.wellFormed, fallback.timeout, fallback.builds⟩
  · have lowest := PriorityMuxer.step_lowestPriorityInfo stepped
    refine ⟨fallback.wellFormed.step stepped, ?_, ?_⟩
    · exact (congrArg InputInfo.timeoutTimeMs lowest).trans fallback.timeout
    · rw [lowest]
      exact fallback.builds

theorem new_fallbackRenders {std : IndexSort} {config : HyperionConfig}
    {source now timerNow : Int} (constructed : new std config source now timerNow = .ok h) :
    h.FallbackRenders := by
  obtain ⟨raw2led, _, rendered⟩ := (new_eq_ok_iff _ _ _ _ _ _).mp constructed
  refine FallbackRenders.update ⟨PriorityMuxer.new_wellFormed _, rfl, ?_⟩ (Or.inl rendered)
  obtain ⟨info, _, _, orders, _, found, computed, built, _⟩ := update_ok rendered
  refine ⟨orders, computed, buildFrame_ok_of_length _ ?_ built⟩
  rw [setCurrentTime, PriorityMuxer.setCurrentTime_find?, Option.filter_eq_some_iff] at found
  have entry := found.1
  rw [initial, PriorityMuxer.new_find?] at entry
  split_ifs at entry
  rw [channelColors_length, ← Option.some.inj entry]
  rfl

theorem FallbackRenders.clearall (fallback : h.FallbackRenders) (clock : Nat → Int) :
    ∃ t, h.clearall clock = .ok t := by
  have unexpired : ∀ now, h.muxer.clearAll.Unexpired now := by
    intro now k info found
    rw [PriorityMuxer.clearAll_find?] at found
    split_ifs at found
    rw [← Option.some.inj found]
    exact PriorityMuxer.not_expired_of_no_timeout fallback.timeout now
  have still : ∀ now, h.muxer.clearAll.setCurrentTime now = h.muxer.clearAll := fun now =>
    (fallback.wellFormed.clearAll.setCurrentTime_eq_self_iff now).mpr ⟨unexpired now, le_rfl⟩
  have renders : ∀ now,
      Renders { h with muxer := h.muxer.clearAll, sourceAutoSelectEnabled := true } now := by
    intro now
    refine ⟨h.muxer.lowestPriorityInfo, ?_, fallback.builds⟩
    rw [setCurrentTime, still]
    exact (PriorityMuxer.clearAll_find? _ _).trans (if_pos rfl)
  obtain ⟨u, selected⟩ := (update_returns_iff _ (clock 0) (clock 1)).mpr (renders (clock 0))
  obtain ⟨v, rendered⟩ := (update_returns_iff u (clock 2) (clock 3)).mpr (by
    rw [update_ok_renders selected, setCurrentTime, still]
    exact renders (clock 2))
  exact ⟨_, bind_eq_ok.mpr ⟨u, selected, bind_eq_ok.mpr ⟨v, rendered, rfl⟩⟩⟩

/-- What a call has to leave of the effects: none that runs on a channel it clears,
or on any where it clears all, and of a finished one nothing. -/
def EndsEffects (h : Hyperion) (call : Call) (t : Hyperion) : Prop :=
  match call.op with
  | .clear p => t.effectEngine.AbortedOn p
  | .setColor p _ _ clearEffects => clearEffects = true → t.effectEngine.AbortedOn p
  | .setColors p _ _ clearEffects _ => clearEffects = true → t.effectEngine.AbortedOn p
  | .clearall => ∀ effect ∈ t.effectEngine.activeEffects, effect.abortRequested = true
  | .effectFinished id => t.effectEngine.activeEffects =
      h.effectEngine.activeEffects.filter (fun effect => !decide (effect.id = id))
  | _ => True

/-- A clear finds no effect running on its channel, or it can make its updates. -/
def ReachesEffects (h : Hyperion) (call : Call) : Prop :=
  match call.op with
  | .clear p => h.effectEngine.AbortedOn p ∨ h.ClearRenders p call.clock
  | _ => True

private theorem setColors_endsEffects {p : Int} {ledColors : List ColorRgb} {timeout : Int}
    {clearEffects : Bool} {component : Components} {clock : Nat → Int}
    (ends : Ends (h.setColors p ledColors timeout clearEffects component clock) t)
    (clears : clearEffects = true) : t.effectEngine.AbortedOn p := by
  rw [(setColors_ends_effects ends).2, if_pos clears]
  exact EffectEngine.channelCleared_abortedOn _ p

theorem EffectsKept.finished (kept : h.EffectsKept) {id : Nat} {clock : Nat → Int}
    (ok : h.effectFinished id clock = .ok t) :
    t.effectEngine.activeEffects =
      h.effectEngine.activeEffects.filter (fun effect => !decide (effect.id = id)) := by
  rcases effectFinished_ok_effects ok with ⟨absent, same⟩ | ⟨effect, found, _, hengine⟩
  · rw [same]
    refine (List.filter_eq_self.mpr fun effect hmem => ?_).symm
    simpa using List.find?_eq_none.mp absent effect hmem
  · rw [hengine, kept.finish found]
    exact EffectEngine.eraseP_eq_filter _ id kept.alloc.nodup

theorem stepCaught_endsEffects_iff (kept : h.EffectsKept) (fallback : h.FallbackRenders)
    {call : Call} (ok : h.stepCaught call = .ok t) :
    h.EndsEffects call t ↔ h.ReachesEffects call := by
  obtain ⟨ends, returns⟩ := stepCaught_ends ok
  rcases call with ⟨op, clock⟩
  cases op with
  | setColor p color timeout clearEffects =>
    exact iff_of_true (setColors_endsEffects ends) trivial
  | setColors p ledColors timeout clearEffects component =>
    exact iff_of_true (setColors_endsEffects ends) trivial
  | clear p =>
    rcases (clear_ends_effects ends).2 with same | ⟨cleared, engine⟩
    · -- the clear has thrown, or its effects were aborted already
      have left : h.ClearRenders p clock → h.effectEngine.AbortedOn p := by
        intro renders
        obtain ⟨u, cleared⟩ := (clear_returns_iff h p clock).mpr renders
        obtain rfl : u = t := by
          unfold stepCaught at ok
          rw [show h.step ⟨.clear p, clock⟩ = .ok u from cleared] at ok
          exact Except.ok.inj ok
        rw [← same, (clear_ok_effects cleared).1]
        exact EffectEngine.channelCleared_abortedOn _ p
      simp only [EndsEffects, ReachesEffects, same]
      exact ⟨Or.inl, fun reaches => reaches.elim id left⟩
    · refine iff_of_true ?_ (Or.inr ((clear_returns_iff h p clock).mp ⟨t, cleared⟩))
      simp only [EndsEffects, engine]
      exact EffectEngine.channelCleared_abortedOn _ p
  | clearall =>
    obtain ⟨u, cleared⟩ := fallback.clearall clock
    obtain rfl : u = t := by
      unfold stepCaught at ok
      rw [show h.step ⟨.clearall, clock⟩ = .ok u from cleared] at ok
      exact Except.ok.inj ok
    refine iff_of_true ?_ trivial
    simp only [EndsEffects, clearall_ok_effects cleared]
    exact EffectEngine.allChannelsCleared_aborted _
  | effectFinished id => exact iff_of_true (kept.finished (returns rfl)) trivial
  | setSourceAutoSelectEnabled enabled => exact Iff.rfl
  | setCurrentSourcePriority p => exact Iff.rfl
  | runEffect name p timeout script => exact Iff.rfl
  | update => exact Iff.rfl

/-- In every run each priority has at most one running effect at any time; that
every call ends the effects it should is so exactly when every clear reaches them. -/
theorem endsEffects_along_iff {std : IndexSort} {config : HyperionConfig}
    {source now timerNow : Int} {h₀ : Hyperion}
    (constructed : new std config source now timerNow = .ok h₀) (calls : List Call) :
    Throughout stepCaught (fun h => h.effectEngine.Exclusive) h₀ calls ∧
    (Along stepCaught (fun h call => ∀ t, h.stepCaught call = .ok t → h.EndsEffects call t)
        h₀ calls ↔
      Along stepCaught (fun h call => ∀ t, h.stepCaught call = .ok t → h.ReachesEffects call)
        h₀ calls) := by
  constructor
  · exact throughout_of_invariant (fun _ _ _ kept ok => EffectsKept.step kept ok)
      (fun _ kept => kept.exclusive) (new_effectsKept constructed) calls
  · refine along_congr (I := fun h => h.EffectsKept ∧ h.FallbackRenders)
      (fun _ _ _ inv ok => ⟨inv.1.step ok, inv.2.step ok⟩) (fun h call inv => ?_)
      ⟨new_effectsKept constructed, new_fallbackRenders constructed⟩
    exact forall_congr' fun t => forall_congr' fun ok => stepCaught_endsEffects_iff inv.1 inv.2 ok

def effectShown : List Call :=
  [⟨.runEffect "Snake" 5 0 "snake.py", fun _ => 0⟩,
    ⟨.setColors 5 [⟨0, 90, 0⟩] (-1) false .effect, fun _ => 0⟩]

def effectCleared : List Call :=
  effectShown ++ [⟨.setColors 7 [⟨200, 0, 0⟩] (-1) true .color, fun _ => 0⟩,
    ⟨.clear 5, fun _ => 10⟩, ⟨.clearall, fun _ => 20⟩]

theorem endsEffects_along_cleared : ∃ h₀ : Hyperion,
    new .stable (.ofLeds [{ index := 0 }]) 0 0 0 = .ok h₀ ∧
    Along stepCaught (fun h call => ∀ t, h.stepCaught call = .ok t → h.EndsEffects call t)
      h₀ effectCleared := by
  have checked : evaluates stepCaught (new .stable (.ofLeds [{ index := 0 }]) 0 0 0) []
      (fun h => checksAlong stepCaught (fun h call => match call.op with
        | .clear p => returnsWith (h.clear p call.clock) fun _ => true
        | _ => true) h effectCleared) = true := by decide +kernel
  obtain ⟨h₀, _, constructed, same, along⟩ := exists_of_evaluates checked
  obtain rfl := reaches_nil.mp same
  refine ⟨h₀, constructed, (endsEffects_along_iff constructed effectCleared).2.mpr
    (along_of_checks along ?_)⟩
  rintro ⟨op, clock⟩ - h passes t -
  cases op with
  | clear p =>
    obtain ⟨u, cleared, _⟩ := exists_of_returnsWith passes
    exact Or.inr ((clear_returns_iff h p clock).mp ⟨u, cleared⟩)
  | _ => trivial

/-- Behind the effect the fallback channel times out: the clear of the effect's
channel finds nothing to show, throws, and the effect runs on. -/
def effectStrayed : List Call :=
  effectShown ++ [⟨.setColors 255 [⟨0, 0, 0⟩] 1000 true .color, fun _ => 0⟩,
    ⟨.clear 5, fun _ => 2000⟩]

theorem cleared_effect_runs_on : ∃ h₀ : Hyperion,
    new .stable (.ofLeds [{ index := 0 }]) 0 0 0 = .ok h₀ ∧
    ¬ Along stepCaught (fun h call => ∀ t, h.stepCaught call = .ok t → h.EndsEffects call t)
      h₀ effectStrayed := by
  have checked : evaluates stepCaught (new .stable (.ofLeds [{ index := 0 }]) 0 0 0)
      effectStrayed.dropLast (fun h => returnsWith (h.stepCaught ⟨.clear 5, fun _ => 2000⟩)
        fun t => t.effectEngine.activeEffects.any fun effect =>
          effect.priority = 5 && !effect.abortRequested) = true := by decide +kernel
  obtain ⟨h₀, h, constructed, run, ended⟩ := exists_of_evaluates checked
  obtain ⟨t, ok, runs⟩ := exists_of_returnsWith ended
  obtain ⟨effect, listed, running⟩ := List.any_eq_true.mp runs
  refine ⟨h₀, constructed, fun along => ?_⟩
  have split : effectStrayed = effectStrayed.dropLast ++ [⟨.clear 5, fun _ => 2000⟩] := rfl
  rw [split, along_append] at along
  have aborted : t.effectEngine.AbortedOn 5 := (along.2 h run).1 t ok
  obtain ⟨channel, running⟩ := Bool.and_eq_true_iff.mp running
  rw [aborted effect listed (of_decide_eq_true channel)] at running
  exact absurd running (by decide)

end Hyperion

end HyperionNg
