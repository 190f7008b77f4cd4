import HyperionNg.LedFrame
import HyperionNg.EffectEngine
import Mathlib.Data.String.Basic

/-! The core object: the muxer, the source selection, the register of source
names, the effects, and `update`, which renders the visible channel and hands
the frame to the device. Every call reads the clock at places of its own, so a
call takes the readings as arguments. A call that throws leaves the state it
has reached. -/

namespace HyperionNg

open Library Library.Execution

/-- The sections of the configuration the core reads. `adjustment` is what
`createLedColorsAdjustment` builds of the `color` section: every `RgbTransform`
starts with the backlight on. -/
structure HyperionConfig where
  leds : List LedConfig
  colorOrder : Option String := none
  ledCount : Option Int := none
  adjustment : MultiColorAdjustment
  backlightOn : ∀ a ∈ adjustment.adjustment, a.rgbTransform.backLightEnabled = true
  effects : List EffectDefinition := []
  smoothing : Option Bool := none

def HyperionConfig.ofLeds (leds : List LedConfig) : HyperionConfig where
  leds
  adjustment := .uniform (leds.filter (fun c => Led.validClone leds.length c.clone < 0)).length
  backlightOn := by simp [MultiColorAdjustment.uniform, ColorAdjustment.default]

def createColorOrder (config : HyperionConfig) : ColorOrder :=
  stringToColorOrder (config.colorOrder.getD "rgb")

/-- `unsigned int hwLedCount = device["ledCount"].toInt(getLedCount())` -/
def HyperionConfig.hwLedCount (config : HyperionConfig) (ledCount : Nat) : Nat :=
  ((config.ledCount.getD ledCount) % 2 ^ 32).toNat

/-- One `setLedValues` call, to the smoothing in front of the device or to the
device itself. -/
structure Frame where
  smoothed : Bool
  ledValues : List ColorRgb
deriving DecidableEq

/-- `ledCount` is the static `LedDevice::_ledCount`; `frames` are the calls of
`setLedValues`, latest first; `timer` is the interval of the running timer. -/
structure Hyperion where
  ledString : List Led
  ledStringClone : List Led
  ledStringColorOrder : List ColorOrder
  muxer : PriorityMuxer
  raw2ledAdjustment : MultiColorAdjustment
  effectEngine : EffectEngine
  hwLedCount : Nat
  priorityRegister : SortedMap String Int
  sourceAutoSelectEnabled : Bool
  currentSourcePriority : Int
  prevCompId : Components
  smoothingEnabled : Bool
  ledCount : Nat
  frames : List Frame
  timer : Option Int

def backlightFor (componentId : Components) : Bool :=
  componentId ≠ .color && componentId ≠ .effect

namespace Hyperion

def registerPriority (h : Hyperion) (name : String) (priority : Int) : Hyperion :=
  { h with priorityRegister := h.priorityRegister.emplace name priority }

def unRegisterPriority (h : Hyperion) (name : String) : Hyperion :=
  { h with priorityRegister := h.priorityRegister.erase name }

def getCurrentPriority (h : Hyperion) : Int :=
  if h.sourceAutoSelectEnabled || !h.muxer.hasPriority h.currentSourcePriority then
    h.muxer.currentPriority
  else h.currentSourcePriority

def selectBacklight (h : Hyperion) (priority : Int) (componentId : Components) : Hyperion :=
  if priority < PriorityMuxer.lowestPriority ∧ componentId ≠ h.prevCompId then
    { h with
      raw2ledAdjustment := h.raw2ledAdjustment.setBacklightEnabled (backlightFor componentId)
      prevCompId := componentId }
  else h

def colorOrders (h : Hyperion) : Except Fault (List ColorOrder) :=
  if h.ledStringColorOrder = [] then initLedStringColorOrder h.ledString h.ledStringClone
  else .ok h.ledStringColorOrder

def setLedValues (h : Hyperion) (ledBuffer : List ColorRgb) : Hyperion :=
  { h with frames := ⟨h.smoothingEnabled, ledBuffer⟩ :: h.frames }

/-- The interval is narrowed to `int`. -/
def startTimer (h : Hyperion) (timeoutTimeMs now : Int) : Hyperion :=
  { h with timer :=
      if timeoutTimeMs = -1 then none else some (max 0 ((timeoutTimeMs - now).bmod (2 ^ 32))) }

def setCurrentTime (h : Hyperion) (now : Int) : Hyperion :=
  { h with muxer := h.muxer.setCurrentTime now }

def update (h : Hyperion) (now timerNow : Int) : Except (Thrown Fault Hyperion) Hyperion := do
  let h := h.setCurrentTime now
  let priority := h.getCurrentPriority
  let priorityInfo ← raise h (h.muxer.getInputInfo priority)
  let h := h.selectBacklight priority priorityInfo.componentId
  let orders ← raise h h.colorOrders
  let h := { h with ledStringColorOrder := orders }
  let ledBuffer ← raise h (buildFrame h.ledStringClone h.ledStringColorOrder h.hwLedCount
    (channelColors h.raw2ledAdjustment priority priorityInfo.ledColors))
  pure ((h.setLedValues ledBuffer).startTimer priorityInfo.timeoutTimeMs timerNow)

def setCurrentSourcePriority (h : Hyperion) (priority : Int) : Hyperion × Bool :=
  if h.muxer.hasPriority priority then
    ({ h with sourceAutoSelectEnabled := false, currentSourcePriority := priority }, true)
  else (h, false)

def setSourceAutoSelectEnabled (h : Hyperion) (enabled : Bool) (now timerNow : Int) :
    Except (Thrown Fault Hyperion) Hyperion :=
  let h := { h with sourceAutoSelectEnabled := enabled }
  let h := if enabled then h else (h.setCurrentSourcePriority h.muxer.currentPriority).1
  h.update now timerNow

/-- The part of `setColors` before it decides on an update. -/
def storeColors (h : Hyperion) (priority : Int) (ledColors : List ColorRgb) (timeoutMs : Int)
    (clearEffects : Bool) (component : Components) (now : Int) : Hyperion :=
  let timeoutTime := if 0 < timeoutMs then now + timeoutMs else -1
  { h with
    effectEngine := if clearEffects then h.effectEngine.channelCleared priority
      else h.effectEngine
    muxer := h.muxer.setInput priority ledColors timeoutTime component }

def setColors (h : Hyperion) (priority : Int) (ledColors : List ColorRgb) (timeoutMs : Int)
    (clearEffects : Bool) (component : Components) (clock : Nat → Int) :
    Except (Thrown Fault Hyperion) Hyperion :=
  let h := h.storeColors priority ledColors timeoutMs clearEffects component (clock 0)
  optionally (!h.sourceAutoSelectEnabled || priority = h.muxer.currentPriority)
    (·.update (clock 1) (clock 2)) h

def setColor (h : Hyperion) (priority : Int) (color : ColorRgb) (timeoutMs : Int)
    (clearEffects : Bool) (clock : Nat → Int) : Except (Thrown Fault Hyperion) Hyperion :=
  h.setColors priority (List.replicate h.ledString.length color) timeoutMs clearEffects .color clock

/-- The part of `clear` under its check that the channel exists. -/
def clearChannel (h : Hyperion) (priority : Int) (clock : Nat → Int) :
    Except (Thrown Fault Hyperion) Hyperion := do
  let muxer ← raise h (h.muxer.clearInput priority)
  let h := { h with muxer }
  let h ← optionally (!h.sourceAutoSelectEnabled && h.currentSourcePriority = priority)
    (·.setSourceAutoSelectEnabled true (clock 0) (clock 1)) h
  optionally (priority < h.muxer.currentPriority) (·.update (clock 2) (clock 3)) h

def clear (h : Hyperion) (priority : Int) (clock : Nat → Int) :
    Except (Thrown Fault Hyperion) Hyperion := do
  let h ← optionally (h.muxer.hasPriority priority) (·.clearChannel priority clock) h
  pure { h with effectEngine := h.effectEngine.channelCleared priority }

def clearall (h : Hyperion) (clock : Nat → Int) : Except (Thrown Fault Hyperion) Hyperion := do
  let h := { h with muxer := h.muxer.clearAll }
  let h ← h.setSourceAutoSelectEnabled true (clock 0) (clock 1)
  let h ← h.update (clock 2) (clock 3)
  pure { h with effectEngine := h.effectEngine.allChannelsCleared }

def runEffectScript (h : Hyperion) (script name : String) (priority timeout : Int) : Hyperion :=
  let effectEngine := (h.effectEngine.channelCleared priority).push script name priority timeout
  { h with effectEngine }.registerPriority name priority

/-- An empty `pythonScript` asks for the effect of that name; `-1` answers that
there is none. -/
def runEffect (h : Hyperion) (effectName : String) (priority timeout : Int)
    (pythonScript : String) : Hyperion × Int :=
  if pythonScript = "" then
    match h.effectEngine.availableEffects.find? (fun e => e.name = effectName) with
    | none => (h, -1)
    | some e => (h.runEffectScript e.script effectName priority timeout, 0)
  else (h.runEffectScript pythonScript effectName priority timeout, 0)

def effectFinished (h : Hyperion) (id : Nat) (clock : Nat → Int) :
    Except (Thrown Fault Hyperion) Hyperion :=
  match h.effectEngine.find? id with
  | none => .ok h
  | some effect => do
    let h ← optionally (!effect.abortRequested) (·.clear effect.priority clock) h
    let h := { h with effectEngine := h.effectEngine.erase id }
    pure (h.unRegisterPriority effect.name)

/-- The state the constructor renders first. The device is dimensioned before
`device.ledCount` is read; `_currentSourcePriority` has no initial value. -/
def initial (std : IndexSort) (config : HyperionConfig) (raw2ledAdjustment : MultiColorAdjustment)
    (currentSourcePriority : Int) : Hyperion :=
  let ledString := createLedString std config.leds (createColorOrder config)
  { ledString, raw2ledAdjustment, currentSourcePriority
    ledStringClone := createLedStringClone std config.leds (createColorOrder config)
    ledStringColorOrder := []
    muxer := PriorityMuxer.new ledString.length
    effectEngine := { availableEffects := config.effects }
    hwLedCount := max (config.hwLedCount ledString.length) ledString.length
    priorityRegister := SortedMap.empty.emplace "Off" PriorityMuxer.lowestPriority
    sourceAutoSelectEnabled := true
    prevCompId := .invalid
    smoothingEnabled := config.smoothing.getD true
    ledCount := ledString.length
    frames := []
    timer := none }

def new (std : IndexSort) (config : HyperionConfig) (currentSourcePriority now timerNow : Int) :
    Except Fault Hyperion :=
  match config.adjustment.verifyAdjustments with
  | none => .error .adjustmentIncorrectlySet
  | some raw2ledAdjustment =>
    ((initial std config raw2ledAdjustment currentSourcePriority).update now timerNow).mapError
      Thrown.fault

theorem new_eq_ok_iff (std : IndexSort) (config : HyperionConfig) (source now timerNow : Int)
    (h : Hyperion) :
    new std config source now timerNow = .ok h ↔
      ∃ raw2ledAdjustment, config.adjustment.verifyAdjustments = some raw2ledAdjustment ∧
        (initial std config raw2ledAdjustment source).update now timerNow = .ok h := by
  unfold new
  cases config.adjustment.verifyAdjustments with
  | none => simp
  | some raw2ledAdjustment =>
    simp only [Option.some.injEq, exists_eq_left']
    cases (initial std config raw2ledAdjustment source).update now timerNow with
    | error e => simp [Except.mapError]
    | ok u => simp [Except.mapError]

def Updates (h t : Hyperion) (now : Int) : Prop :=
  ∃ ledStringColorOrder raw2ledAdjustment prevCompId frames timer,
    t = { h with muxer := h.muxer.setCurrentTime now, ledStringColorOrder, raw2ledAdjustment,
                 prevCompId, frames, timer }

theorem selectBacklight_eq (h : Hyperion) (priority : Int) (componentId : Components) :
    ∃ raw2ledAdjustment prevCompId,
      h.selectBacklight priority componentId = { h with raw2ledAdjustment, prevCompId } := by
  unfold selectBacklight
  split_ifs
  · exact ⟨_, _, rfl⟩
  · exact ⟨_, _, rfl⟩

theorem update_ends {h t : Hyperion} {now timerNow : Int} (ends : Ends (h.update now timerNow) t) :
    h.Updates t now := by
  rcases ends_raise_bind ends with rfl | ⟨info, _, ends⟩
  · exact ⟨_, _, _, _, _, rfl⟩
  · obtain ⟨adjustment, prev, hsel⟩ := selectBacklight_eq (h.setCurrentTime now)
      (h.setCurrentTime now).getCurrentPriority info.componentId
    rw [hsel] at ends
    rcases ends_raise_bind ends with rfl | ⟨orders, _, ends⟩
    · exact ⟨_, _, _, _, _, rfl⟩
    · rcases ends_raise_bind ends with rfl | ⟨frame, _, ends⟩
      · exact ⟨_, _, _, _, _, rfl⟩
      · rw [← ends_pure.mp ends]
        exact ⟨_, _, _, _, _, rfl⟩

theorem update_eq_ok_iff (h t : Hyperion) (now timerNow : Int) :
    h.update now timerNow = .ok t ↔
      ∃ info, (h.setCurrentTime now).muxer.activeInputs.find?
          (h.setCurrentTime now).getCurrentPriority = some info ∧
        ∃ s, (h.setCurrentTime now).selectBacklight (h.setCurrentTime now).getCurrentPriority
            info.componentId = s ∧
        ∃ orders, s.colorOrders = .ok orders ∧
        ∃ ledBuffer, buildFrame s.ledStringClone orders s.hwLedCount
            (channelColors s.raw2ledAdjustment (h.setCurrentTime now).getCurrentPriority
              info.ledColors) = .ok ledBuffer ∧
          (({ s with ledStringColorOrder := orders }).setLedValues ledBuffer).startTimer
            info.timeoutTimeMs timerNow = t := by
  simp only [update, bind_eq_ok, raise_eq_ok, pure_eq_ok, PriorityMuxer.getInputInfo_eq_ok_iff,
    exists_eq_left']

theorem update_ok {h t : Hyperion} {now timerNow : Int} (ok : h.update now timerNow = .ok t) :
    ∃ info raw2ledAdjustment prevCompId orders ledBuffer,
      (h.setCurrentTime now).muxer.activeInputs.find? (h.setCurrentTime now).getCurrentPriority =
        some info ∧
      h.colorOrders = .ok orders ∧
      buildFrame h.ledStringClone orders h.hwLedCount (channelColors raw2ledAdjustment
        (h.setCurrentTime now).getCurrentPriority info.ledColors) = .ok ledBuffer ∧
      t = ({ h.setCurrentTime now with
        raw2ledAdjustment, prevCompId, ledStringColorOrder := orders }.setLedValues
          ledBuffer).startTimer info.timeoutTimeMs timerNow := by
  obtain ⟨info, found, s, selected, orders, horders, ledBuffer, built, done⟩ :=
    (update_eq_ok_iff _ _ _ _).mp ok
  obtain ⟨raw2ledAdjustment, prevCompId, hselect⟩ := selectBacklight_eq (h.setCurrentTime now)
    (h.setCurrentTime now).getCurrentPriority info.componentId
  rw [hselect] at selected
  subst selected
  exact ⟨info, raw2ledAdjustment, prevCompId, orders, ledBuffer, found, horders, built, done.symm⟩

theorem update_ok_muxer {h t : Hyperion} {now timerNow : Int}
    (ok : h.update now timerNow = .ok t) : t.muxer = h.muxer.setCurrentTime now := by
  obtain ⟨_, _, _, _, _, rfl⟩ := update_ends (Or.inl ok)
  rfl

theorem clear_ok_muxer {h t : Hyperion} {p : Int} {clock : Nat → Int}
    (has : h.muxer.hasPriority p = true) (ok : h.clear p clock = .ok t) :
    ∃ m, h.muxer.clearInput p = .ok m ∧ ∃ u,
      u = (if h.sourceAutoSelectEnabled = false ∧ h.currentSourcePriority = p then
        m.setCurrentTime (clock 0) else m) ∧
      t.muxer = if p < u.currentPriority then u.setCurrentTime (clock 2) else u := by
  obtain ⟨v, hv, ht⟩ := bind_eq_ok.mp ok
  rw [has, optionally_true] at hv
  obtain ⟨m, hm, hv⟩ := bind_eq_ok.mp hv
  obtain ⟨u, hu, hv⟩ := bind_eq_ok.mp hv
  rw [← Except.ok.inj ht]
  have selected : u.muxer = if h.sourceAutoSelectEnabled = false ∧ h.currentSourcePriority = p then
      m.setCurrentTime (clock 0) else m := by
    by_cases hs : h.sourceAutoSelectEnabled = false ∧ h.currentSourcePriority = p
    · simp only [hs, Bool.not_false, decide_true, Bool.and_true, optionally_true] at hu
      rw [if_pos hs]
      exact update_ok_muxer hu
    · have hcond :
          (!h.sourceAutoSelectEnabled && decide (h.currentSourcePriority = p)) = false := by
        simpa using hs
      simp only [hcond, optionally_false] at hu
      rw [if_neg hs, ← Except.ok.inj hu]
  refine ⟨m, raise_eq_ok.mp hm, u.muxer, selected, ?_⟩
  by_cases hp : p < u.muxer.currentPriority
  · simp only [hp, decide_true, optionally_true] at hv
    rw [if_pos hp]
    have updated := update_ok_muxer hv
    exact updated
  · simp only [hp, decide_false, optionally_false] at hv
    rw [if_neg hp, ← Except.ok.inj hv]

theorem Updates.sameEffects {h t : Hyperion} {now : Int} (updates : h.Updates t now) :
    t.effectEngine = h.effectEngine ∧ t.priorityRegister = h.priorityRegister := by
  obtain ⟨_, _, _, _, _, rfl⟩ := updates
  exact ⟨rfl, rfl⟩

theorem setSourceAutoSelectEnabled_ends {h t : Hyperion} {enabled : Bool} {now timerNow : Int}
    (ends : Ends (h.setSourceAutoSelectEnabled enabled now timerNow) t) :
    ∃ sourceAutoSelectEnabled currentSourcePriority,
      Updates { h with sourceAutoSelectEnabled, currentSourcePriority } t now := by
  have updates := update_ends ends
  cases enabled with
  | true => exact ⟨_, _, updates⟩
  | false =>
    simp only [Bool.false_eq_true, if_false, setCurrentSourcePriority] at updates
    split_ifs at updates
    · exact ⟨_, _, updates⟩
    · exact ⟨_, _, updates⟩

theorem setSourceAutoSelectEnabled_true_ends {h t : Hyperion} {now timerNow : Int}
    (ends : Ends (h.setSourceAutoSelectEnabled true now timerNow) t) :
    Updates { h with sourceAutoSelectEnabled := true } t now :=
  update_ends ends

theorem setColors_ends {h t : Hyperion} {p : Int} {ledColors : List ColorRgb} {timeout : Int}
    {clearEffects : Bool} {component : Components} {clock : Nat → Int}
    (ends : Ends (h.setColors p ledColors timeout clearEffects component clock) t) :
    t = h.storeColors p ledColors timeout clearEffects component (clock 0) ∨
      Ends ((h.storeColors p ledColors timeout clearEffects component (clock 0)).update (clock 1)
        (clock 2)) t := by
  unfold setColors at ends
  rcases ends_optionally ends with ⟨_, ends⟩ | ⟨_, rfl⟩
  · exact Or.inr ends
  · exact Or.inl rfl

theorem clearChannel_ends {h t : Hyperion} {p : Int} {clock : Nat → Int}
    (ends : Ends (h.clearChannel p clock) t) :
    t = h ∨ ∃ muxer, h.muxer.clearInput p = .ok muxer ∧ ∃ u : Hyperion,
      (u = { h with muxer } ∨ Ends (update { h with muxer, sourceAutoSelectEnabled := true }
        (clock 0) (clock 1)) u) ∧
      (t = u ∨ Ends (u.update (clock 2) (clock 3)) t) := by
  rcases ends_raise_bind ends with rfl | ⟨muxer, cleared, ends⟩
  · exact Or.inl rfl
  · have selected : ∀ {u : Hyperion}, Ends (optionally
        (!h.sourceAutoSelectEnabled && h.currentSourcePriority = p)
        (·.setSourceAutoSelectEnabled true (clock 0) (clock 1)) { h with muxer }) u →
        u = { h with muxer } ∨ Ends (update { h with muxer, sourceAutoSelectEnabled := true }
          (clock 0) (clock 1)) u := by
      intro u hu
      rcases ends_optionally hu with ⟨_, hu⟩ | ⟨_, rfl⟩
      · exact Or.inr hu
      · exact Or.inl rfl
    refine Or.inr ⟨muxer, cleared, ?_⟩
    rcases ends_bind ends with hu | ⟨u, hu, ends⟩
    · exact ⟨t, selected hu, Or.inl rfl⟩
    · refine ⟨u, selected (Or.inl hu), ?_⟩
      rcases ends_optionally ends with ⟨_, ends⟩ | ⟨_, rfl⟩
      · exact Or.inr ends
      · exact Or.inl rfl

theorem clear_ends {h t : Hyperion} {p : Int} {clock : Nat → Int}
    (ends : Ends (h.clear p clock) t) :
    ∃ u, (u = h ∨ Ends (h.clearChannel p clock) u) ∧
      (t = u ∨ (h.clear p clock = .ok t ∧
        t = { u with effectEngine := u.effectEngine.channelCleared p })) := by
  have checked : ∀ {u : Hyperion},
      Ends (optionally (h.muxer.hasPriority p) (·.clearChannel p clock) h) u →
      u = h ∨ Ends (h.clearChannel p clock) u := by
    intro u hu
    rcases ends_optionally hu with ⟨_, hu⟩ | ⟨_, rfl⟩
    · exact Or.inr hu
    · exact Or.inl rfl
  rcases ends_bind ends with hu | ⟨u, hu, ends⟩
  · exact ⟨t, checked hu, Or.inl rfl⟩
  · have done := ends_pure.mp ends
    refine ⟨u, checked (Or.inl hu), Or.inr ⟨?_, done.symm⟩⟩
    exact bind_eq_ok.mpr ⟨u, hu, congrArg Except.ok done⟩

theorem clearall_ends {h t : Hyperion} {clock : Nat → Int} (ends : Ends (h.clearall clock) t) :
    ∃ u : Hyperion,
      Ends (update { h with muxer := h.muxer.clearAll, sourceAutoSelectEnabled := true }
        (clock 0) (clock 1)) u ∧
      (t = u ∨ ∃ v, Ends (u.update (clock 2) (clock 3)) v ∧
        (t = v ∨ t = { v with effectEngine := v.effectEngine.allChannelsCleared })) := by
  rcases ends_bind ends with hu | ⟨u, hu, ends⟩
  · exact ⟨t, hu, Or.inl rfl⟩
  · refine ⟨u, Or.inl hu, Or.inr ?_⟩
    rcases ends_bind ends with hv | ⟨v, hv, ends⟩
    · exact ⟨t, hv, Or.inl rfl⟩
    · exact ⟨v, Or.inl hv, Or.inr (ends_pure.mp ends).symm⟩

theorem effectFinished_ok {h t : Hyperion} {id : Nat} {clock : Nat → Int}
    (ok : h.effectFinished id clock = .ok t) :
    (h.effectEngine.find? id = none ∧ t = h) ∨
    ∃ effect, h.effectEngine.find? id = some effect ∧ ∃ u : Hyperion,
      ((effect.abortRequested = true ∧ u = h) ∨
        (effect.abortRequested = false ∧ h.clear effect.priority clock = .ok u)) ∧
      t = { u with
        effectEngine := u.effectEngine.erase id
        priorityRegister := u.priorityRegister.erase effect.name } := by
  unfold effectFinished at ok
  cases hf : h.effectEngine.find? id with
  | none =>
    rw [hf] at ok
    exact Or.inl ⟨rfl, (Except.ok.inj ok).symm⟩
  | some effect =>
    rw [hf] at ok
    obtain ⟨u, hu, ht⟩ := bind_eq_ok.mp ok
    refine Or.inr ⟨effect, rfl, u, ?_, (Except.ok.inj ht).symm⟩
    cases haborted : effect.abortRequested with
    | true =>
      rw [haborted] at hu
      exact Or.inl ⟨rfl, (Except.ok.inj hu).symm⟩
    | false =>
      rw [haborted] at hu
      exact Or.inr ⟨rfl, hu⟩

/-- The calls from outside, from the timer and from the effects. -/
inductive Op
  | setColor (priority : Int) (color : ColorRgb) (timeoutMs : Int) (clearEffects : Bool)
  | setColors (priority : Int) (ledColors : List ColorRgb) (timeoutMs : Int)
      (clearEffects : Bool) (component : Components)
  | clear (priority : Int)
  | clearall
  | setSourceAutoSelectEnabled (enabled : Bool)
  | setCurrentSourcePriority (priority : Int)
  | runEffect (effectName : String) (priority timeout : Int) (pythonScript : String)
  | effectFinished (id : Nat)
  | update

structure Call where
  op : Op
  clock : Nat → Int

def step (h : Hyperion) (call : Call) : Except (Thrown Fault Hyperion) Hyperion :=
  match call.op with
  | .setColor p color timeout clearEffects => h.setColor p color timeout clearEffects call.clock
  | .setColors p ledColors timeout clearEffects component =>
      h.setColors p ledColors timeout clearEffects component call.clock
  | .clear p => h.clear p call.clock
  | .clearall => h.clearall call.clock
  | .setSourceAutoSelectEnabled enabled =>
      h.setSourceAutoSelectEnabled enabled (call.clock 0) (call.clock 1)
  | .setCurrentSourcePriority p => .ok (h.setCurrentSourcePriority p).1
  | .runEffect name p timeout script => .ok (h.runEffect name p timeout script).1
  | .effectFinished id => h.effectFinished id call.clock
  | .update => h.update (call.clock 0) (call.clock 1)

def Op.isRequest : Op → Bool
  | .effectFinished _ => false
  | _ => true

/-- The connection catches an exception, and the core stays as the call left it. -/
def stepCaught (h : Hyperion) (call : Call) : Except Fault Hyperion :=
  match h.step call with
  | .ok t => .ok t
  | .error thrown =>
      if call.op.isRequest && thrown.fault.isException then .ok thrown.state
      else .error thrown.fault

theorem stepCaught_ends {h t : Hyperion} {call : Call} (step : h.stepCaught call = .ok t) :
    Ends (h.step call) t ∧ (call.op.isRequest = false → h.step call = .ok t) := by
  unfold stepCaught at step
  cases hstep : h.step call with
  | ok u =>
    rw [hstep] at step
    have same : u = t := Except.ok.inj step
    exact ⟨ends_ok.mpr same, fun _ => congrArg _ same⟩
  | error thrown =>
    rw [hstep] at step
    simp only at step
    split_ifs at step with hcaught
    refine ⟨Or.inr ⟨thrown.fault, congrArg _ ?_⟩, fun hrequest => ?_⟩
    · rw [← Except.ok.inj step]
    · rw [hrequest, Bool.false_and] at hcaught
      exact absurd hcaught Bool.false_ne_true

section Invariant

variable {I : Hyperion → Prop}
  (updated : ∀ h t now timerNow, I h → Ends (h.update now timerNow) t → I t)
  (replaced : ∀ h muxer effectEngine priorityRegister sourceAutoSelectEnabled
    currentSourcePriority, (muxer = h.muxer ∨ ∃ op, h.muxer.step op = .ok muxer) → I h →
      I { h with
        muxer, effectEngine, priorityRegister, sourceAutoSelectEnabled, currentSourcePriority })

include updated replaced

theorem setSourceAutoSelectEnabled_invariant {h t : Hyperion} {enabled : Bool}
    {now timerNow : Int} (inv : I h)
    (ends : Ends (h.setSourceAutoSelectEnabled enabled now timerNow) t) : I t := by
  refine updated _ _ _ _ ?_ ends
  cases enabled with
  | true => exact replaced h _ _ _ _ _ (Or.inl rfl) inv
  | false =>
    simp only [Bool.false_eq_true, if_false, setCurrentSourcePriority]
    split_ifs
    · exact replaced h _ _ _ _ _ (Or.inl rfl) inv
    · exact replaced h _ _ _ _ _ (Or.inl rfl) inv

theorem clear_invariant {h t : Hyperion} {p : Int} {clock : Nat → Int} (inv : I h)
    (ends : Ends (h.clear p clock) t) : I t := by
  have channel : ∀ u, Ends (h.clearChannel p clock) u → I u := by
    intro u ends
    rcases clearChannel_ends ends with rfl | ⟨muxer, cleared, v, selected, ends⟩
    · exact inv
    · have op : ∃ op, h.muxer.step op = .ok muxer := ⟨.clearInput p, cleared⟩
      have invV : I v := by
        rcases selected with rfl | selected
        · exact replaced h _ _ _ _ _ (Or.inr op) inv
        · exact updated _ _ _ _ (replaced h _ _ _ _ _ (Or.inr op) inv) selected
      rcases ends with rfl | ends
      · exact invV
      · exact updated _ _ _ _ invV ends
  obtain ⟨u, reached, rest⟩ := clear_ends ends
  have invU : I u := by
    rcases reached with rfl | reached
    · exact inv
    · exact channel u reached
  rcases rest with rfl | ⟨_, rfl⟩
  · exact invU
  · exact replaced u _ _ _ _ _ (Or.inl rfl) invU

theorem step_invariant {h t : Hyperion} {call : Call} (inv : I h)
    (ends : Ends (h.step call) t) : I t := by
  rcases call with ⟨op, clock⟩
  have colors : ∀ {p ledColors timeout clearEffects component},
      Ends (h.setColors p ledColors timeout clearEffects component clock) t → I t := by
    intro p ledColors timeout clearEffects component ends
    have stored : I (h.storeColors p ledColors timeout clearEffects component (clock 0)) :=
      replaced h _ _ _ _ _ (Or.inr ⟨.setInput p ledColors _ component, rfl⟩) inv
    rcases setColors_ends ends with rfl | ends
    · exact stored
    · exact updated _ _ _ _ stored ends
  cases op with
  | setColor p color timeout clearEffects => exact colors ends
  | setColors p ledColors timeout clearEffects component => exact colors ends
  | clear p => exact clear_invariant updated replaced inv ends
  | clearall =>
    obtain ⟨u, selected, rest⟩ := clearall_ends ends
    have invU : I u :=
      updated _ _ _ _ (replaced h _ _ _ _ _ (Or.inr ⟨.clearAll, rfl⟩) inv) selected
    rcases rest with rfl | ⟨v, rendered, rest⟩
    · exact invU
    · have invV : I v := updated _ _ _ _ invU rendered
      rcases rest with rfl | rfl
      · exact invV
      · exact replaced v _ _ _ _ _ (Or.inl rfl) invV
  | setSourceAutoSelectEnabled enabled =>
    exact setSourceAutoSelectEnabled_invariant updated replaced inv ends
  | setCurrentSourcePriority p =>
    rw [← ends_ok.mp ends, setCurrentSourcePriority]
    split_ifs
    · exact replaced h _ _ _ _ _ (Or.inl rfl) inv
    · exact inv
  | runEffect name p timeout script =>
    rw [← ends_ok.mp ends, runEffect]
    split_ifs
    · split
      · exact inv
      · exact replaced h _ _ _ _ _ (Or.inl rfl) inv
    · exact replaced h _ _ _ _ _ (Or.inl rfl) inv
  | effectFinished id =>
    unfold step effectFinished at ends
    cases hf : h.effectEngine.find? id with
    | none =>
      simp only [hf, ends_ok] at ends
      exact ends ▸ inv
    | some effect =>
      simp only [hf] at ends
      have stopped : ∀ u, Ends (optionally (!effect.abortRequested)
          (·.clear effect.priority clock) h) u → I u := by
        intro u hu
        rcases ends_optionally hu with ⟨_, hu⟩ | ⟨_, rfl⟩
        · exact clear_invariant updated replaced inv hu
        · exact inv
      rcases ends_bind ends with hu | ⟨u, hu, ends⟩
      · exact stopped t hu
      · rw [← ends_pure.mp ends]
        exact replaced u _ _ _ _ _ (Or.inl rfl) (stopped u (Or.inl hu))
  | update => exact updated _ _ _ _ inv ends

end Invariant

end Hyperion

end HyperionNg
