import HyperionNg.Hyperion
import HyperionNg.PriorityMuxerInvariant

/-! The frame on the device against the channel that is visible. While no
channel expires, every call that changes the visible channel or its colours
renders it again, with one exception: selecting a source by hand. -/

namespace HyperionNg

open Library Library.Execution

namespace PriorityMuxer

/-- The current channel is active, the fallback too, and every channel, like
the entry a `clearAll` restores, has one colour for each of `ledCount` LEDs. -/
structure Populated (m : PriorityMuxer) (ledCount : Nat) : Prop where
  wellFormed : m.WellFormed
  active : m.CurrentActive
  fallback : m.activeInputs.contains lowestPriority = true
  channels : ∀ k info, m.activeInputs.find? k = some info → info.ledColors.length = ledCount
  restored : m.lowestPriorityInfo.timeoutTimeMs = -1 ∧
    m.lowestPriorityInfo.ledColors.length = ledCount

theorem new_populated (ledCount : Nat) : (new ledCount).Populated ledCount where
  wellFormed := new_wellFormed ledCount
  active := new_currentActive ledCount
  fallback := new_currentActive ledCount
  channels k info h := by
    rw [new_find?] at h
    split_ifs at h
    rw [← Option.some.inj h]
    simp [new]
  restored := ⟨rfl, by simp [new]⟩

theorem Populated.setCurrentTime {m : PriorityMuxer} {ledCount : Nat}
    (populated : m.Populated ledCount) {now : Int} (unexpired : m.Unexpired now) :
    m.setCurrentTime now = m :=
  (populated.wellFormed.setCurrentTime_eq_self_iff now).mpr
    ⟨unexpired, populated.wellFormed.least _ populated.fallback⟩

theorem Populated.setInput {m : PriorityMuxer} {ledCount : Nat}
    (populated : m.Populated ledCount) (p : Int) {colors : List ColorRgb} (timeout : Int)
    (component : Components) (sized : colors.length = ledCount) :
    (m.setInput p colors timeout component).Populated ledCount where
  wellFormed := populated.wellFormed.setInput p colors timeout component
  active := setInput_currentActive populated.active p colors timeout component
  fallback := by
    rw [PriorityMuxer.setInput, SortedMap.contains_insert, populated.fallback, Bool.or_true]
  channels k info h := by
    rw [setInput_find?] at h
    split_ifs at h
    · rw [← Option.some.inj h]
      exact sized
    · exact populated.channels k info h
  restored := populated.restored

theorem Unexpired.setInput {m : PriorityMuxer} {now : Int} (unexpired : m.Unexpired now) (p : Int)
    (colors : List ColorRgb) {timeout : Int} (component : Components)
    (fresh : timeout ≠ -1 → now < timeout) :
    (m.setInput p colors timeout component).Unexpired now := by
  intro k info h
  rw [setInput_find?] at h
  split_ifs at h
  · rw [← Option.some.inj h]
    by_cases hnone : timeout = -1
    · exact not_expired_of_no_timeout hnone now
    · simp [InputInfo.expired, not_le.mpr (fresh hnone)]
  · exact unexpired k info h

theorem Populated.clearInput {m : PriorityMuxer} {ledCount : Nat}
    (populated : m.Populated ledCount) (p : Int) :
    ∃ t, m.clearInput p = .ok t ∧ t.Populated ledCount := by
  have sustains : m.Sustains (.clearInput p) := fun hp _ =>
    ⟨lowestPriority, ne_of_gt hp, populated.fallback⟩
  obtain ⟨t, ht, active⟩ := (clearInput_currentActive_iff populated.active p).mpr sustains
  have stays : t.activeInputs.find? lowestPriority = m.activeInputs.find? lowestPriority := by
    rw [clearInput_find? ht, if_neg (fun h => absurd h.2 (by omega))]
  refine ⟨t, ht, populated.wellFormed.clearInput ht, active, ?_, fun k info h => ?_, ?_⟩
  · rw [SortedMap.contains, stays]
    exact populated.fallback
  · rw [clearInput_find? ht] at h
    split_ifs at h
    exact populated.channels k info h
  · rw [clearInput_lowestPriorityInfo ht]
    exact populated.restored

theorem Unexpired.clearInput {m t : PriorityMuxer} {now : Int} (unexpired : m.Unexpired now)
    {p : Int} (h : m.clearInput p = .ok t) : t.Unexpired now := by
  intro k info hk
  rw [clearInput_find? h] at hk
  split_ifs at hk
  exact unexpired k info hk

theorem Populated.clearAll {m : PriorityMuxer} {ledCount : Nat}
    (populated : m.Populated ledCount) : m.clearAll.Populated ledCount where
  wellFormed := populated.wellFormed.clearAll
  active := clearAll_currentActive m
  fallback := clearAll_currentActive m
  channels k info h := by
    rw [clearAll_find?] at h
    split_ifs at h
    rw [← Option.some.inj h]
    exact populated.restored.2
  restored := populated.restored

theorem Populated.clearAll_unexpired {m : PriorityMuxer} {ledCount : Nat}
    (populated : m.Populated ledCount) (now : Int) : m.clearAll.Unexpired now := by
  intro k info h
  rw [clearAll_find?] at h
  split_ifs at h
  rw [← Option.some.inj h]
  exact not_expired_of_no_timeout populated.restored.1 now

end PriorityMuxer

namespace Hyperion

def render (h : Hyperion) (priority : Int) (info : InputInfo) : Except Fault (List ColorRgb) :=
  composeFrame h.ledString h.ledStringClone h.hwLedCount
    (channelColors (h.raw2ledAdjustment.setBacklightEnabled (backlightFor info.componentId))
      priority info.ledColors)

/-- The last frame is the rendering of the channel `getCurrentPriority` names. -/
def ShowsVisible (h : Hyperion) : Prop :=
  ∃ info, h.muxer.activeInputs.find? h.getCurrentPriority = some info ∧
    ∃ frame, h.frames.head? = some frame ∧
      h.render h.getCurrentPriority info = .ok frame.ledValues

instance (h : Hyperion) : Decidable h.ShowsVisible :=
  decidable_of_iff (∃ info ∈ h.muxer.activeInputs.find? h.getCurrentPriority,
    ∃ frame ∈ h.frames.head?, h.render h.getCurrentPriority info = .ok frame.ledValues) Iff.rfl

structure Steady (h : Hyperion) : Prop where
  muxer : h.muxer.Populated h.ledString.length
  backlight : ∀ a ∈ h.raw2ledAdjustment.adjustment,
    a.rgbTransform.backLightEnabled = backlightFor h.prevCompId
  orders : h.colorOrders = initLedStringColorOrder h.ledString h.ledStringClone
  builds : ∃ frame, composeFrame h.ledString h.ledStringClone h.hwLedCount
    (List.replicate h.ledString.length .black) = .ok frame

theorem setBacklightEnabled_backlight (m : MultiColorAdjustment) (enable : Bool) :
    ∀ a ∈ (m.setBacklightEnabled enable).adjustment,
      a.rgbTransform.backLightEnabled = enable := by
  intro a ha
  simp only [MultiColorAdjustment.setBacklightEnabled, List.mem_map] at ha
  obtain ⟨b, _, rfl⟩ := ha
  rfl

theorem selectBacklight_backlight {h : Hyperion}
    (backlight : ∀ a ∈ h.raw2ledAdjustment.adjustment,
      a.rgbTransform.backLightEnabled = backlightFor h.prevCompId)
    (priority : Int) (componentId : Components) :
    ∀ a ∈ (h.selectBacklight priority componentId).raw2ledAdjustment.adjustment,
      a.rgbTransform.backLightEnabled =
        backlightFor (h.selectBacklight priority componentId).prevCompId := by
  unfold selectBacklight
  split_ifs
  · exact setBacklightEnabled_backlight _ _
  · exact backlight

theorem selectBacklight_setBacklightEnabled (h : Hyperion) (priority : Int)
    (componentId : Components) (enable : Bool) :
    (h.selectBacklight priority componentId).raw2ledAdjustment.setBacklightEnabled enable =
      h.raw2ledAdjustment.setBacklightEnabled enable := by
  unfold selectBacklight
  split_ifs
  · exact MultiColorAdjustment.setBacklightEnabled_setBacklightEnabled _ _ _
  · rfl

theorem channelColors_selectBacklight {h : Hyperion}
    (backlight : ∀ a ∈ h.raw2ledAdjustment.adjustment,
      a.rgbTransform.backLightEnabled = backlightFor h.prevCompId)
    (priority : Int) (componentId : Components) (ledColors : List ColorRgb) :
    channelColors (h.selectBacklight priority componentId).raw2ledAdjustment priority ledColors =
      channelColors (h.raw2ledAdjustment.setBacklightEnabled (backlightFor componentId))
        priority ledColors := by
  unfold channelColors
  split_ifs with hp
  · by_cases hsame : componentId = h.prevCompId
    · rw [selectBacklight, if_neg (fun hne => hne.2 hsame), hsame,
        MultiColorAdjustment.setBacklightEnabled_eq_self _ _ backlight]
    · rw [selectBacklight, if_pos ⟨hp, hsame⟩]
  · rfl

theorem Steady.visible_active {h : Hyperion} (steady : h.Steady) :
    ∃ info, h.muxer.activeInputs.find? h.getCurrentPriority = some info := by
  rw [← Option.isSome_iff_exists]
  unfold getCurrentPriority
  split_ifs with hauto
  · exact steady.muxer.active
  · have hhas : h.muxer.hasPriority h.currentSourcePriority = true := by
      simpa using (Bool.or_eq_false_iff.mp (Bool.eq_false_iff.mpr hauto)).2
    unfold PriorityMuxer.hasPriority at hhas
    split_ifs at hhas with hlowest
    · rw [hlowest]
      exact steady.muxer.fallback
    · exact hhas

theorem Steady.update {h : Hyperion} (steady : h.Steady) {now : Int} (timerNow : Int)
    (unexpired : h.muxer.Unexpired now) :
    ∃ t, h.update now timerNow = .ok t ∧ t.Steady ∧ t.ShowsVisible ∧ t.muxer = h.muxer := by
  obtain ⟨info, hinfo⟩ := steady.visible_active
  obtain ⟨blank, hblank⟩ := steady.builds
  obtain ⟨orders, horders, hblank⟩ := bind_ok.mp hblank
  obtain ⟨raw2led, prev, hsel⟩ := selectBacklight_eq h h.getCurrentPriority info.componentId
  have lit := selectBacklight_backlight steady.backlight h.getCurrentPriority info.componentId
  have colors := channelColors_selectBacklight steady.backlight h.getCurrentPriority
    info.componentId info.ledColors
  have enabled := selectBacklight_setBacklightEnabled h h.getCurrentPriority info.componentId
  rw [hsel] at lit colors enabled
  obtain ⟨frame, hframe⟩ := buildFrame_ok_of_length
    (channelColors raw2led h.getCurrentPriority info.ledColors) (by
      rw [channelColors_length, List.length_replicate]
      exact (steady.muxer.channels _ _ hinfo).symm) hblank
  have still : h.setCurrentTime now = h := by
    rw [Hyperion.setCurrentTime, steady.muxer.setCurrentTime unexpired]
  let rendered : Hyperion := { h with
    raw2ledAdjustment := raw2led, prevCompId := prev, ledStringColorOrder := orders }
  let t := (rendered.setLedValues frame).startTimer info.timeoutTimeMs timerNow
  have returns : h.update now timerNow = .ok t := by
    rw [update_eq_ok_iff, still]
    exact ⟨info, hinfo, _, hsel, orders, steady.orders.trans horders, frame, hframe, rfl⟩
  have shows : t.ShowsVisible := by
    refine ⟨info, hinfo, _, rfl, ?_⟩
    change composeFrame _ _ _ (channelColors (raw2led.setBacklightEnabled _)
      h.getCurrentPriority info.ledColors) = _
    rw [enabled, ← colors]
    exact bind_ok.mpr ⟨orders, horders, hframe⟩
  have recomputed : t.colorOrders = initLedStringColorOrder h.ledString h.ledStringClone := by
    unfold colorOrders
    split_ifs
    · rfl
    · exact horders.symm
  exact ⟨t, returns, ⟨steady.muxer, lit, recomputed, steady.builds⟩, shows, rfl⟩

theorem Steady.replace {h : Hyperion} (steady : h.Steady) {muxer : PriorityMuxer}
    (populated : muxer.Populated h.ledString.length) (effectEngine : EffectEngine)
    (priorityRegister : SortedMap String Int) (sourceAutoSelectEnabled : Bool)
    (currentSourcePriority : Int) :
    Steady { h with muxer, effectEngine, priorityRegister, sourceAutoSelectEnabled
                    currentSourcePriority } :=
  ⟨populated, steady.backlight, steady.orders, steady.builds⟩

theorem ShowsVisible.replace {h : Hyperion} (shows : h.ShowsVisible) {muxer : PriorityMuxer}
    {effectEngine : EffectEngine} {priorityRegister : SortedMap String Int}
    {sourceAutoSelectEnabled : Bool} {currentSourcePriority : Int}
    (visible : getCurrentPriority
      { h with muxer, effectEngine, priorityRegister, sourceAutoSelectEnabled
               currentSourcePriority } = h.getCurrentPriority)
    (entry : muxer.activeInputs.find? h.getCurrentPriority =
      h.muxer.activeInputs.find? h.getCurrentPriority) :
    ShowsVisible { h with muxer, effectEngine, priorityRegister, sourceAutoSelectEnabled
                          currentSourcePriority } := by
  obtain ⟨info, hinfo, frame, hframe, hrender⟩ := shows
  refine ⟨info, ?_, frame, hframe, ?_⟩
  · rw [visible]
    exact entry.trans hinfo
  · rw [visible]
    exact hrender

theorem Steady.setColors {h : Hyperion} (steady : h.Steady) (shows : h.ShowsVisible) (p : Int)
    {ledColors : List ColorRgb} {timeout : Int} (clearEffects : Bool) (component : Components)
    {clock : Nat → Int} (sized : ledColors.length = h.ledString.length)
    (unexpired : ∀ i, h.muxer.Unexpired (clock i))
    (fresh : 0 < timeout → ∀ i, clock i < clock 0 + timeout) :
    ∃ t, h.setColors p ledColors timeout clearEffects component clock = .ok t ∧
      t.Steady ∧ t.ShowsVisible := by
  have next : Steady (h.storeColors p ledColors timeout clearEffects component (clock 0)) :=
    steady.replace (steady.muxer.setInput p _ component sized) _ _ _ _
  have live : (h.storeColors p ledColors timeout clearEffects component
      (clock 0)).muxer.Unexpired (clock 1) := by
    refine (unexpired 1).setInput p ledColors component fun hne => ?_
    split_ifs at hne ⊢ with htimeout
    · exact fresh htimeout 1
    · exact absurd rfl hne
  unfold Hyperion.setColors
  cases hrenders : !(h.storeColors p ledColors timeout clearEffects component
      (clock 0)).sourceAutoSelectEnabled || decide (p = (h.storeColors p ledColors timeout
        clearEffects component (clock 0)).muxer.currentPriority) with
  | true =>
    obtain ⟨t, returns, steady', shows', _⟩ := next.update (clock 2) live
    refine ⟨t, ?_, steady', shows'⟩
    simp only [hrenders, optionally_true]
    exact returns
  | false =>
    refine ⟨_, by simp only [hrenders, optionally_false], next, ?_⟩
    -- without an update the channel is behind the current one
    obtain ⟨hauto, hbehind⟩ : h.sourceAutoSelectEnabled = true ∧
        p ≠ min h.muxer.currentPriority p := by
      simpa [storeColors, PriorityMuxer.setInput] using hrenders
    have hmin : min h.muxer.currentPriority p = h.muxer.currentPriority := by omega
    have visible : h.getCurrentPriority = h.muxer.currentPriority := by
      simp [getCurrentPriority, hauto]
    refine shows.replace ?_ ?_
    · simp [getCurrentPriority, hauto, PriorityMuxer.setInput, hmin]
    · rw [visible, PriorityMuxer.setInput_find?, if_neg (by omega)]

theorem Steady.setSourceAutoSelectEnabled {h : Hyperion} (steady : h.Steady) (enabled : Bool)
    {now : Int} (timerNow : Int) (unexpired : h.muxer.Unexpired now) :
    ∃ t, h.setSourceAutoSelectEnabled enabled now timerNow = .ok t ∧ t.Steady ∧
      t.ShowsVisible ∧ t.muxer = h.muxer := by
  cases enabled with
  | true => exact Steady.update (steady.replace steady.muxer _ _ true _) timerNow unexpired
  | false =>
    have hhas : h.muxer.hasPriority h.muxer.currentPriority = true := by
      unfold PriorityMuxer.hasPriority
      split_ifs
      · rfl
      · exact steady.muxer.active
    have selected : setCurrentSourcePriority { h with sourceAutoSelectEnabled := false }
        h.muxer.currentPriority = ({ h with
          sourceAutoSelectEnabled := false
          currentSourcePriority := h.muxer.currentPriority }, true) := if_pos hhas
    unfold Hyperion.setSourceAutoSelectEnabled
    simp only [Bool.false_eq_true, if_false, selected]
    exact Steady.update (steady.replace steady.muxer _ _ false _) timerNow unexpired

theorem clearInput_visible {h : Hyperion} {m : PriorityMuxer} {p : Int}
    (cleared : h.muxer.clearInput p = .ok m) (wf : h.muxer.WellFormed)
    (unselected : (!h.sourceAutoSelectEnabled && decide (h.currentSourcePriority = p)) = false)
    (above : ¬ p < m.currentPriority) :
    getCurrentPriority { h with muxer := m } = h.getCurrentPriority ∧
      m.activeInputs.find? h.getCurrentPriority =
        h.muxer.activeInputs.find? h.getCurrentPriority := by
  rcases PriorityMuxer.clearInput_cases cleared with
    ⟨_, rfl⟩ | ⟨_, hne, rfl⟩ | ⟨_, hcur, k, hk, rfl⟩
  · exact ⟨rfl, rfl⟩
  · have hselected : h.sourceAutoSelectEnabled = false → h.currentSourcePriority ≠ p := by
      intro hmanual hp
      simp [hmanual, hp] at unselected
    have hhas : h.sourceAutoSelectEnabled = false →
        PriorityMuxer.hasPriority { h.muxer with activeInputs := h.muxer.activeInputs.erase p }
          h.currentSourcePriority = h.muxer.hasPriority h.currentSourcePriority := by
      intro hmanual
      simp [PriorityMuxer.hasPriority, SortedMap.contains_erase, hselected hmanual]
    have visible : getCurrentPriority { h with muxer :=
        { h.muxer with activeInputs := h.muxer.activeInputs.erase p } } = h.getCurrentPriority := by
      cases hauto : h.sourceAutoSelectEnabled with
      | true => simp [getCurrentPriority, hauto]
      | false => simp [getCurrentPriority, hauto, hhas hauto]
    refine ⟨visible, ?_⟩
    have hother : h.getCurrentPriority ≠ p := by
      unfold getCurrentPriority
      split_ifs with hsel
      · exact hne
      · refine hselected ?_
        simpa using (Bool.or_eq_false_iff.mp (Bool.eq_false_iff.mpr hsel)).1
    rw [SortedMap.find?_erase, if_neg hother]
  · -- the least remaining key is above the cleared current channel
    have hkey := hk.1
    rw [Set.mem_ofPred_eq, SortedMap.contains_erase, Bool.and_eq_true] at hkey
    have hle := wf.least k hkey.2
    have hne : k ≠ p := of_decide_eq_true hkey.1
    exact absurd (show p < k by omega) above

theorem Steady.clearChannel {h : Hyperion} (steady : h.Steady) (shows : h.ShowsVisible) (p : Int)
    {clock : Nat → Int} (unexpired : ∀ i, h.muxer.Unexpired (clock i)) :
    ∃ t, h.clearChannel p clock = .ok t ∧ t.Steady ∧ t.ShowsVisible := by
  obtain ⟨m, cleared, populated⟩ := steady.muxer.clearInput p
  have live : ∀ i, m.Unexpired (clock i) := fun i => (unexpired i).clearInput cleared
  have next : Steady { h with muxer := m } := steady.replace populated _ _ _ _
  -- after the selection: rendered already, or still to be compared
  obtain ⟨u, selected, steadyU, sameMuxer, shown⟩ : ∃ u, optionally
      (!h.sourceAutoSelectEnabled && decide (h.currentSourcePriority = p))
      (·.setSourceAutoSelectEnabled true (clock 0) (clock 1)) { h with muxer := m } = .ok u ∧
      u.Steady ∧ u.muxer = m ∧ (¬ p < m.currentPriority → u.ShowsVisible) := by
    cases hselected : !h.sourceAutoSelectEnabled && decide (h.currentSourcePriority = p) with
    | true =>
      obtain ⟨u, returns, steadyU, showsU, sameMuxer⟩ :=
        next.setSourceAutoSelectEnabled true (clock 1) (live 0)
      exact ⟨u, returns, steadyU, sameMuxer, fun _ => showsU⟩
    | false =>
      refine ⟨_, rfl, next, rfl, fun above => ?_⟩
      obtain ⟨visible, entry⟩ :=
        clearInput_visible cleared steady.muxer.wellFormed hselected above
      exact shows.replace visible entry
  obtain ⟨t, returns, steadyT, showsT⟩ : ∃ t, optionally (p < u.muxer.currentPriority)
      (·.update (clock 2) (clock 3)) u = .ok t ∧ t.Steady ∧ t.ShowsVisible := by
    rw [sameMuxer]
    by_cases habove : p < m.currentPriority
    · obtain ⟨t, returns, steadyT, showsT, _⟩ := steadyU.update (clock 3) (sameMuxer ▸ live 2)
      exact ⟨t, by simpa [habove] using returns, steadyT, showsT⟩
    · exact ⟨u, by simp [habove], steadyU, shown habove⟩
  exact ⟨t, bind_eq_ok.mpr ⟨m, raise_eq_ok.mpr cleared, bind_eq_ok.mpr ⟨u, selected, returns⟩⟩,
    steadyT, showsT⟩

theorem Steady.clear {h : Hyperion} (steady : h.Steady) (shows : h.ShowsVisible) (p : Int)
    {clock : Nat → Int} (unexpired : ∀ i, h.muxer.Unexpired (clock i)) :
    ∃ t, h.clear p clock = .ok t ∧ t.Steady ∧ t.ShowsVisible := by
  obtain ⟨u, returns, steadyU, showsU⟩ : ∃ u, optionally (h.muxer.hasPriority p)
      (·.clearChannel p clock) h = .ok u ∧ u.Steady ∧ u.ShowsVisible := by
    cases h.muxer.hasPriority p with
    | true => exact steady.clearChannel shows p unexpired
    | false => exact ⟨h, rfl, steady, shows⟩
  exact ⟨_, bind_eq_ok.mpr ⟨u, returns, rfl⟩, steadyU.replace steadyU.muxer _ _ _ _,
    showsU.replace rfl rfl⟩

theorem Steady.clearall {h : Hyperion} (steady : h.Steady) (clock : Nat → Int) :
    ∃ t, h.clearall clock = .ok t ∧ t.Steady ∧ t.ShowsVisible := by
  have next : Steady { h with muxer := h.muxer.clearAll } :=
    steady.replace steady.muxer.clearAll _ _ _ _
  have live := fun i => steady.muxer.clearAll_unexpired (clock i)
  obtain ⟨u, selected, steadyU, _, sameMuxer⟩ :=
    next.setSourceAutoSelectEnabled true (clock 1) (live 0)
  have liveU : u.muxer.Unexpired (clock 2) := sameMuxer ▸ live 2
  obtain ⟨t, returns, steadyT, showsT, _⟩ := steadyU.update (clock 3) liveU
  exact ⟨_, bind_eq_ok.mpr ⟨u, selected, bind_eq_ok.mpr ⟨t, returns, rfl⟩⟩,
    steadyT.replace steadyT.muxer _ _ _ _, showsT.replace rfl rfl⟩

/-- No channel expires while the call runs, neither one that is active nor the
one the call sets. -/
def NoneExpires (h : Hyperion) (call : Call) : Prop :=
  (∀ i, h.muxer.Unexpired (call.clock i)) ∧
  match call.op with
  | .setColor _ _ timeout _ | .setColors _ _ timeout _ _ =>
      0 < timeout → ∀ i, call.clock i < call.clock 0 + timeout
  | _ => True

/-- Callers pass one colour for each normal LED. -/
def Sized (h : Hyperion) (call : Call) : Prop :=
  match call.op with
  | .setColors _ ledColors _ _ _ => ledColors.length = h.ledString.length
  | _ => True

/-- A source is selected by hand only where it is visible already. -/
def SelectsVisible (h : Hyperion) (call : Call) : Prop :=
  match call.op with
  | .setCurrentSourcePriority p => h.muxer.hasPriority p = true → p = h.getCurrentPriority
  | _ => True

theorem Steady.step {h : Hyperion} (steady : h.Steady) (shows : h.ShowsVisible) {call : Call}
    (unexpired : h.NoneExpires call) (sized : h.Sized call) (selects : h.SelectsVisible call) :
    ∃ t, h.step call = .ok t ∧ t.Steady ∧ t.ShowsVisible := by
  rcases call with ⟨op, clock⟩
  obtain ⟨live, fresh⟩ := unexpired
  cases op with
  | setColor p color timeout clearEffects =>
    exact steady.setColors shows p clearEffects .color (by simp) live fresh
  | setColors p ledColors timeout clearEffects component =>
    exact steady.setColors shows p clearEffects component sized live fresh
  | clear p => exact steady.clear shows p live
  | clearall => exact steady.clearall clock
  | setSourceAutoSelectEnabled enabled =>
    obtain ⟨t, returns, steady', shows', _⟩ :=
      steady.setSourceAutoSelectEnabled enabled (clock 1) (live 0)
    exact ⟨t, returns, steady', shows'⟩
  | setCurrentSourcePriority p =>
    cases hhas : h.muxer.hasPriority p with
    | false => exact ⟨h, by simp [Hyperion.step, setCurrentSourcePriority, hhas], steady, shows⟩
    | true =>
      have visible := selects hhas
      refine ⟨{ h with sourceAutoSelectEnabled := false, currentSourcePriority := p },
        by simp [Hyperion.step, setCurrentSourcePriority, hhas],
        steady.replace steady.muxer _ _ _ _, shows.replace ?_ rfl⟩
      rw [← visible]
      simp [getCurrentPriority, hhas]
  | runEffect name p timeout script =>
    refine ⟨_, rfl, ?_⟩
    unfold Hyperion.runEffect
    split_ifs
    · split
      · exact ⟨steady, shows⟩
      · exact ⟨steady.replace steady.muxer _ _ _ _, shows.replace rfl rfl⟩
    · exact ⟨steady.replace steady.muxer _ _ _ _, shows.replace rfl rfl⟩
  | effectFinished id =>
    cases hf : h.effectEngine.find? id with
    | none => exact ⟨h, by simp [Hyperion.step, effectFinished, hf], steady, shows⟩
    | some effect =>
      obtain ⟨u, returns, steadyU, showsU⟩ : ∃ u, optionally (!effect.abortRequested)
          (·.clear effect.priority clock) h = .ok u ∧ u.Steady ∧ u.ShowsVisible := by
        cases effect.abortRequested with
        | true => exact ⟨h, rfl, steady, shows⟩
        | false => exact steady.clear shows effect.priority live
      refine ⟨_, ?_, steadyU.replace steadyU.muxer (u.effectEngine.erase id)
        (u.priorityRegister.erase effect.name) _ _, showsU.replace rfl rfl⟩
      simp only [Hyperion.step, effectFinished, hf]
      exact bind_eq_ok.mpr ⟨u, returns, rfl⟩
  | update =>
    obtain ⟨t, returns, steady', shows', _⟩ := steady.update (clock 1) (live 0)
    exact ⟨t, returns, steady', shows'⟩

theorem new_steady {std : IndexSort} {config : HyperionConfig} {source now timerNow : Int}
    {h : Hyperion} (constructed : new std config source now timerNow = .ok h) :
    h.Steady ∧ h.ShowsVisible := by
  obtain ⟨raw2led, verified, rendered⟩ := (new_eq_ok_iff _ _ _ _ _ _).mp constructed
  have populated := PriorityMuxer.new_populated
    (createLedString std config.leds (createColorOrder config)).length
  have live : (initial std config raw2led source).muxer.Unexpired now := by
    intro k info hk
    rw [initial, PriorityMuxer.new_find?] at hk
    split_ifs at hk
    rw [← Option.some.inj hk]
    exact PriorityMuxer.not_expired_of_no_timeout rfl now
  have steady : Steady (initial std config raw2led source) := by
    refine ⟨populated, MultiColorAdjustment.verifyAdjustments_backlight config.backlightOn verified,
      rfl, ?_⟩
    -- the frame the constructor has rendered shows that frames can be built
    have still : (initial std config raw2led source).setCurrentTime now =
        initial std config raw2led source := by
      rw [Hyperion.setCurrentTime]
      exact congrArg (fun m => { initial std config raw2led source with muxer := m })
        (populated.setCurrentTime live)
    obtain ⟨info, _, _, orders, frame, hinfo, horders, hframe, _⟩ := update_ok rendered
    rw [still] at hinfo hframe
    obtain ⟨blank, hblank⟩ := buildFrame_ok_of_length
      (List.replicate (initial std config raw2led source).ledString.length .black) (by
        rw [channelColors_length, List.length_replicate]
        exact populated.channels _ _ hinfo) hframe
    exact ⟨blank, bind_ok.mpr ⟨orders, horders, hblank⟩⟩
  obtain ⟨t, returns, steady', shows', _⟩ := steady.update timerNow live
  rw [← Except.ok.inj (returns.symm.trans rendered)]
  exact ⟨steady', shows'⟩

/-- While no channel expires and sources are selected by hand only where they
are visible, no call of a run fails, and after every call the last frame is
the rendering of the visible channel. -/
theorem always_shows_visible {std : IndexSort} {config : HyperionConfig}
    {source now timerNow : Int} {h₀ : Hyperion} {calls : List Call}
    (constructed : new std config source now timerNow = .ok h₀)
    (conditions : Along step
      (fun h call => h.NoneExpires call ∧ h.Sized call ∧ h.SelectsVisible call) h₀ calls) :
    Always step ShowsVisible h₀ calls := by
  have always : Always step (fun h => h.Steady ∧ h.ShowsVisible) h₀ calls :=
    always_of_along (fun h call good cond =>
      good.1.step good.2 cond.1 cond.2.1 cond.2.2) (new_steady constructed) conditions
  exact always.imp fun _ good => good.2

theorem noneExpires_of_unexpired {h : Hyperion} {now : Int} (unexpired : h.muxer.Unexpired now)
    (op : Op) : h.NoneExpires ⟨op, fun _ => now⟩ := by
  refine ⟨fun _ => unexpired, ?_⟩
  cases op with
  | setColor p color timeout clearEffects =>
    exact fun htimeout _ => lt_add_of_pos_right now htimeout
  | setColors p ledColors timeout clearEffects component =>
    exact fun htimeout _ => lt_add_of_pos_right now htimeout
  | _ => trivial

def oneSelected : List Call :=
  [⟨.setColors 5 [⟨200, 0, 0⟩] 0 true .color, fun _ => 0⟩,
    ⟨.setCurrentSourcePriority 5, fun _ => 0⟩]

theorem always_shows_visible_selected : ∃ h₀ : Hyperion,
    new .stable (.ofLeds [{ index := 0 }]) 0 0 0 = .ok h₀ ∧
    Always step ShowsVisible h₀ oneSelected := by
  have checked : evaluates stepCaught (new .stable (.ofLeds [{ index := 0 }]) 0 0 0) []
      (fun h => checksAlong step (fun h call => decide (h.muxer.Unexpired 0) &&
        match call.op with
        | .setColors _ ledColors _ _ _ => decide (ledColors.length = h.ledString.length)
        | .setCurrentSourcePriority p => decide (p = h.getCurrentPriority)
        | _ => true) h oneSelected) = true := by decide +kernel
  obtain ⟨h₀, _, constructed, same, along⟩ := exists_of_evaluates checked
  obtain rfl := reaches_nil.mp same
  refine ⟨h₀, constructed, always_shows_visible constructed (along_of_checks along ?_)⟩
  intro call hcall h passes
  obtain ⟨unexpired, passes⟩ := Bool.and_eq_true_iff.mp passes
  rcases List.mem_pair.mp hcall with rfl | rfl
  · have sized : 1 = h.ledString.length := of_decide_eq_true passes
    exact ⟨noneExpires_of_unexpired (of_decide_eq_true unexpired) _, sized, trivial⟩
  · have visible : 5 = h.getCurrentPriority := of_decide_eq_true passes
    exact ⟨noneExpires_of_unexpired (of_decide_eq_true unexpired) _, trivial, fun _ => visible⟩

def hiddenSelected : List Call :=
  [⟨.setColors 5 [⟨200, 0, 0⟩] 0 true .color, fun _ => 0⟩,
    ⟨.setColors 7 [⟨0, 200, 0⟩] 0 true .color, fun _ => 0⟩,
    ⟨.setCurrentSourcePriority 7, fun _ => 0⟩]

/-- Selecting the hidden channel 7 makes it visible and renders nothing. -/
theorem selected_channel_not_shown : ∃ h₀ : Hyperion,
    new .stable (.ofLeds [{ index := 0 }]) 0 0 0 = .ok h₀ ∧
    Along step (fun h call => h.NoneExpires call ∧ h.Sized call) h₀ hiddenSelected ∧
    ¬ Always step ShowsVisible h₀ hiddenSelected := by
  have checked : evaluates stepCaught (new .stable (.ofLeds [{ index := 0 }]) 0 0 0) []
      (fun h => checksAlong step (fun h _ => decide (h.muxer.Unexpired 0) &&
          decide (1 = h.ledString.length)) h hiddenSelected &&
        evaluates step (.ok h) hiddenSelected (fun t => !decide t.ShowsVisible)) =
      true := by decide +kernel
  obtain ⟨h₀, _, constructed, same, passes⟩ := exists_of_evaluates checked
  obtain rfl := reaches_nil.mp same
  obtain ⟨along, ended⟩ := Bool.and_eq_true_iff.mp passes
  refine ⟨h₀, constructed, along_of_checks along ?_, fun always => ?_⟩
  · intro call hcall h passes
    obtain ⟨unexpired, passes⟩ := Bool.and_eq_true_iff.mp passes
    have live := of_decide_eq_true unexpired
    have sized : 1 = h.ledString.length := of_decide_eq_true passes
    simp only [hiddenSelected, List.mem_cons, List.not_mem_nil, or_false] at hcall
    rcases hcall with rfl | rfl | rfl
    · exact ⟨noneExpires_of_unexpired live _, sized⟩
    · exact ⟨noneExpires_of_unexpired live _, sized⟩
    · exact ⟨noneExpires_of_unexpired live _, trivial⟩
  · obtain ⟨_, t, hstart, run, dark⟩ := exists_of_evaluates ended
    have shown := (always.reaches ((Except.ok.inj hstart) ▸ run))
    simp [shown] at dark

end Hyperion

end HyperionNg
