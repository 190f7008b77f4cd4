import HyperionNg.Hyperion
import HyperionNg.LedAdjustments

/-! The `adjustment` command of the JSON server. It sets any part of one
adjustment, the backlight threshold and the brightness independently, and does
not check them against each other as the constructor does. -/

namespace HyperionNg

open Library Library.Execution

/-- The `adjustment` object, as the schema lets it through. -/
structure AdjustmentCommand where
  id : Option String := none
  red : Option RgbChannelAdjustment := none
  green : Option RgbChannelAdjustment := none
  blue : Option RgbChannelAdjustment := none
  cyan : Option RgbChannelAdjustment := none
  magenta : Option RgbChannelAdjustment := none
  yellow : Option RgbChannelAdjustment := none
  black : Option RgbChannelAdjustment := none
  white : Option RgbChannelAdjustment := none
  gammaRed : Option ℚ := none
  gammaGreen : Option ℚ := none
  gammaBlue : Option ℚ := none
  backlightThreshold : Option ℚ := none
  backlightColored : Option Bool := none
  brightness : Option ℚ := none

def HyperionConfig.ofColors (leds : List LedConfig) {build : Build} {std : StdPow} {ledCnt : Nat}
    {channelAdjustment : List AdjustmentConfig} {adjustment : MultiColorAdjustment}
    (created : createLedColorsAdjustment build std ledCnt channelAdjustment = .ok adjustment) :
    HyperionConfig where
  leds
  adjustment
  backlightOn := createLedColorsAdjustment_backlight created

namespace AdjustmentCommand

def setTransform (std : StdPow) (adjustment : AdjustmentCommand) (t : RgbTransform) :
    RgbTransform :=
  let t := adjustment.gammaRed.elim t fun gamma => t.setGamma std gamma t.gammaG t.gammaB
  let t := adjustment.gammaGreen.elim t fun gamma => t.setGamma std t.gammaR gamma t.gammaB
  let t := adjustment.gammaBlue.elim t fun gamma => t.setGamma std t.gammaR t.gammaG gamma
  let t := adjustment.backlightThreshold.elim t (t.setBacklightThreshold std)
  let t := adjustment.backlightColored.elim t t.setBacklightColored
  adjustment.brightness.elim t (t.setBrightness std)

/-- What the command does to `*colorAdjustment`. -/
def setColorAdjustment (std : StdPow) (adjustment : AdjustmentCommand)
    (colorAdjustment : ColorAdjustment) : ColorAdjustment where
  id := colorAdjustment.id
  rgbRedAdjustment := adjustment.red.getD colorAdjustment.rgbRedAdjustment
  rgbGreenAdjustment := adjustment.green.getD colorAdjustment.rgbGreenAdjustment
  rgbBlueAdjustment := adjustment.blue.getD colorAdjustment.rgbBlueAdjustment
  rgbCyanAdjustment := adjustment.cyan.getD colorAdjustment.rgbCyanAdjustment
  rgbMagentaAdjustment := adjustment.magenta.getD colorAdjustment.rgbMagentaAdjustment
  rgbYellowAdjustment := adjustment.yellow.getD colorAdjustment.rgbYellowAdjustment
  rgbBlackAdjustment := adjustment.black.getD colorAdjustment.rgbBlackAdjustment
  rgbWhiteAdjustment := adjustment.white.getD colorAdjustment.rgbWhiteAdjustment
  rgbTransform := adjustment.setTransform std colorAdjustment.rgbTransform

end AdjustmentCommand

namespace MultiColorAdjustment

def modifyAdjustment (m : MultiColorAdjustment) (k : Nat)
    (f : ColorAdjustment → ColorAdjustment) : MultiColorAdjustment :=
  { m with adjustment := m.adjustment.modify k f }

end MultiColorAdjustment

namespace Hyperion

/-- The id defaults to the first one registered, and is looked up even where
it is not needed: without adjustments `front()` has no element. -/
def handleAdjustmentCommand (std : StdPow) (h : Hyperion) (adjustment : AdjustmentCommand)
    (clock : Nat → Int) : Except (Thrown Fault Hyperion) Hyperion :=
  match h.raw2ledAdjustment.adjustment with
  | [] => .error ⟨.undefinedBehaviour, h⟩
  | front :: _ =>
    match h.raw2ledAdjustment.getAdjustment (adjustment.id.getD front.id) with
    | none => .ok h
    | some colorAdjustment =>
      let raw2ledAdjustment := h.raw2ledAdjustment.modifyAdjustment colorAdjustment
        (adjustment.setColorAdjustment std)
      { h with raw2ledAdjustment }.update (clock 0) (clock 1)

/-- A command with the readings its update takes of the clock; the connection
catches an exception. -/
def adjustmentStep (std : StdPow) (h : Hyperion) (call : AdjustmentCommand × (Nat → Int)) :
    Except Fault Hyperion :=
  match h.handleAdjustmentCommand std call.1 call.2 with
  | .ok t => .ok t
  | .error thrown =>
      if thrown.fault.isException then .ok thrown.state else .error thrown.fault

def commandTarget (h : Hyperion) (adjustment : AdjustmentCommand) : Option Nat :=
  h.raw2ledAdjustment.adjustment.head?.bind fun front =>
    h.raw2ledAdjustment.getAdjustment (adjustment.id.getD front.id)

end Hyperion

namespace AdjustmentCommand

theorem elim_keeps {β γ : Type} (value : RgbTransform → γ) {part : Option β} {t : RgbTransform}
    {set : β → RgbTransform} (keeps : ∀ b, value (set b) = value t) :
    value (part.elim t set) = value t := by
  cases part with
  | none => rfl
  | some b => exact keeps b

private theorem elim_sets {γ : Type} (value : RgbTransform → γ) {part : Option γ} {t : RgbTransform}
    {set : γ → RgbTransform} (sets : ∀ c, value (set c) = c) :
    value (part.elim t set) = part.getD (value t) := by
  cases part with
  | none => rfl
  | some c => exact sets c

theorem setTransform_threshold (std : StdPow) (adjustment : AdjustmentCommand)
    (t : RgbTransform) : (adjustment.setTransform std t).backlightThreshold =
      adjustment.backlightThreshold.getD t.backlightThreshold := by
  refine Eq.trans (elim_keeps RgbTransform.backlightThreshold fun _ => rfl) ?_
  refine Eq.trans (elim_keeps RgbTransform.backlightThreshold fun _ => rfl) ?_
  refine Eq.trans (elim_sets RgbTransform.backlightThreshold fun _ => rfl) ?_
  congr 1
  refine Eq.trans (elim_keeps RgbTransform.backlightThreshold fun _ => rfl) ?_
  refine Eq.trans (elim_keeps RgbTransform.backlightThreshold fun _ => rfl) ?_
  exact elim_keeps RgbTransform.backlightThreshold fun _ => rfl

theorem setTransform_brightness (std : StdPow) (adjustment : AdjustmentCommand)
    (t : RgbTransform) : (adjustment.setTransform std t).brightnessHigh =
      adjustment.brightness.getD t.brightnessHigh := by
  refine Eq.trans (elim_sets RgbTransform.brightnessHigh fun _ => rfl) ?_
  congr 1
  refine Eq.trans (elim_keeps RgbTransform.brightnessHigh fun _ => rfl) ?_
  refine Eq.trans (elim_keeps RgbTransform.brightnessHigh fun _ => rfl) ?_
  refine Eq.trans (elim_keeps RgbTransform.brightnessHigh fun _ => rfl) ?_
  refine Eq.trans (elim_keeps RgbTransform.brightnessHigh fun _ => rfl) ?_
  exact elim_keeps RgbTransform.brightnessHigh fun _ => rfl

end AdjustmentCommand

namespace MultiColorAdjustment

/-- The condition `verifyAdjustments` establishes for every assigned adjustment. -/
def BrightnessAboveThreshold (m : MultiColorAdjustment) : Prop :=
  ∀ i a, m.adjustmentOfLed i = some a →
    a.rgbTransform.backlightThreshold < a.rgbTransform.brightnessHigh

theorem adjustmentOfLed_eq_some {m : MultiColorAdjustment} {i : Nat} {a : ColorAdjustment} :
    m.adjustmentOfLed i = some a ↔
      ∃ k, m.ledAdjustments[i]? = some (some k) ∧ m.adjustment[k]? = some a := by
  rw [adjustmentOfLed, Option.bind_eq_some_iff]
  simp only [Option.join_eq_some_iff]

theorem verifyAdjustments_brightness {m verified : MultiColorAdjustment}
    (ok : m.verifyAdjustments = some verified) : verified.BrightnessAboveThreshold := by
  obtain ⟨same, repaired⟩ := verifyAdjustments_spec ok
  intro i a led
  obtain ⟨k, pointer, here⟩ := adjustmentOfLed_eq_some.mp led
  rw [same] at pointer
  rw [repaired k] at here
  obtain ⟨b, _, rfl⟩ := Option.map_eq_some_iff.mp here
  rw [if_pos (List.mem_of_getElem? pointer)]
  exact repairBrightness_lt b

theorem setBacklightEnabled_brightness (m : MultiColorAdjustment) (enable : Bool) :
    (m.setBacklightEnabled enable).BrightnessAboveThreshold ↔ m.BrightnessAboveThreshold := by
  have led : ∀ i, (m.setBacklightEnabled enable).adjustmentOfLed i =
      (m.adjustmentOfLed i).map fun a =>
        { a with rgbTransform := { a.rgbTransform with backLightEnabled := enable } } := by
    intro i
    cases pointer : m.ledAdjustments[i]?.join with
    | none => simp [adjustmentOfLed, setBacklightEnabled, pointer]
    | some k => simp [adjustmentOfLed, setBacklightEnabled, pointer]
  constructor
  · intro above i a found
    have switched := led i
    rw [found, Option.map_some] at switched
    have values := above i _ switched
    exact values
  · intro above i a found
    rw [led] at found
    obtain ⟨b, before, rfl⟩ := Option.map_eq_some_iff.mp found
    exact above i b before

theorem modifyAdjustment_brightness {m : MultiColorAdjustment} (above : m.BrightnessAboveThreshold)
    (k : Nat) (f : ColorAdjustment → ColorAdjustment) :
    (m.modifyAdjustment k f).BrightnessAboveThreshold ↔
      ∀ (i : Nat) (a : ColorAdjustment), m.ledAdjustments[i]? = some (some k) →
        m.adjustment[k]? = some a →
        (f a).rgbTransform.backlightThreshold < (f a).rgbTransform.brightnessHigh := by
  constructor
  · intro after i a pointer here
    apply after i (f a)
    rw [adjustmentOfLed_eq_some]
    exact ⟨k, pointer, by simp [modifyAdjustment, here]⟩
  · intro changed i a led
    obtain ⟨j, pointer, here⟩ := adjustmentOfLed_eq_some.mp led
    rw [modifyAdjustment, List.getElem?_modify] at here
    obtain ⟨b, before, rfl⟩ := Option.map_eq_some_iff.mp here
    by_cases same : k = j
    · subst same
      simpa using changed i b pointer before
    · simpa [same] using above i b (adjustmentOfLed_eq_some.mpr ⟨j, pointer, before⟩)

end MultiColorAdjustment

namespace Hyperion

theorem update_brightness {h t : Hyperion} {now timerNow : Int}
    (ends : Ends (h.update now timerNow) t) :
    t.raw2ledAdjustment.BrightnessAboveThreshold ↔
      h.raw2ledAdjustment.BrightnessAboveThreshold := by
  have selected : ∀ priority componentId, (((h.setCurrentTime now).selectBacklight priority
      componentId).raw2ledAdjustment).BrightnessAboveThreshold ↔
        h.raw2ledAdjustment.BrightnessAboveThreshold := by
    intro priority componentId
    unfold selectBacklight
    split_ifs
    · exact h.raw2ledAdjustment.setBacklightEnabled_brightness _
    · exact Iff.rfl
  rcases ends_raise_bind ends with rfl | ⟨info, _, ends⟩
  · exact Iff.rfl
  · rcases ends_raise_bind ends with rfl | ⟨orders, _, ends⟩
    · exact selected _ _
    · rcases ends_raise_bind ends with rfl | ⟨frame, _, ends⟩
      · exact selected _ _
      · rw [← ends_pure.mp ends]
        exact selected _ _

theorem new_brightness {std : IndexSort} {config : HyperionConfig} {source now timerNow : Int}
    {h : Hyperion} (constructed : new std config source now timerNow = .ok h) :
    h.raw2ledAdjustment.BrightnessAboveThreshold := by
  obtain ⟨raw2ledAdjustment, verified, updated⟩ :=
    (new_eq_ok_iff std config source now timerNow h).mp constructed
  exact (update_brightness (Or.inl updated)).mpr
    (MultiColorAdjustment.verifyAdjustments_brightness verified)

theorem adjustmentStep_cases {std : StdPow} {h t : Hyperion}
    {call : AdjustmentCommand × (Nat → Int)} (ok : h.adjustmentStep std call = .ok t) :
    (h.commandTarget call.1 = none ∧ t = h) ∨
      ∃ k, h.commandTarget call.1 = some k ∧
        Ends (update { h with raw2ledAdjustment :=
          h.raw2ledAdjustment.modifyAdjustment k (call.1.setColorAdjustment std) }
          (call.2 0) (call.2 1)) t := by
  have ends : Ends (h.handleAdjustmentCommand std call.1 call.2) t ∧
      h.handleAdjustmentCommand std call.1 call.2 ≠ .error ⟨.undefinedBehaviour, h⟩ := by
    unfold adjustmentStep at ok
    cases handled : h.handleAdjustmentCommand std call.1 call.2 with
    | ok u =>
      rw [handled] at ok
      exact ⟨ends_ok.mpr (Except.ok.inj ok), by simp⟩
    | error thrown =>
      rw [handled] at ok
      simp only at ok
      split_ifs at ok with caught
      refine ⟨Or.inr ⟨thrown.fault, ?_⟩, ?_⟩
      · rw [← Except.ok.inj ok]
      · intro undefined
        rw [Except.error.inj undefined] at caught
        simp [Fault.isException] at caught
  obtain ⟨ends, defined⟩ := ends
  unfold handleAdjustmentCommand at ends defined
  unfold commandTarget
  cases registered : h.raw2ledAdjustment.adjustment with
  | nil => simp [registered] at defined
  | cons front rest =>
    simp only [registered, List.head?_cons, Option.bind_some] at ends ⊢
    cases found : h.raw2ledAdjustment.getAdjustment (call.1.id.getD front.id) with
    | none =>
      simp only [found] at ends
      exact Or.inl ⟨rfl, (ends_ok.mp ends).symm⟩
    | some k =>
      simp only [found] at ends
      exact Or.inr ⟨k, rfl, ends⟩

/-- Where the command's adjustment is assigned, the brightness it has after the
command is above the threshold it has then. -/
def SetsBrightnessAbove (h : Hyperion) (adjustment : AdjustmentCommand) : Prop :=
  ∀ (k : Nat) (a : ColorAdjustment) (i : Nat), h.commandTarget adjustment = some k →
    h.raw2ledAdjustment.ledAdjustments[i]? = some (some k) →
    h.raw2ledAdjustment.adjustment[k]? = some a →
    adjustment.backlightThreshold.getD a.rgbTransform.backlightThreshold <
      adjustment.brightness.getD a.rgbTransform.brightnessHigh

theorem adjustmentStep_brightness {std : StdPow} {h t : Hyperion}
    {call : AdjustmentCommand × (Nat → Int)}
    (above : h.raw2ledAdjustment.BrightnessAboveThreshold)
    (ok : h.adjustmentStep std call = .ok t) :
    t.raw2ledAdjustment.BrightnessAboveThreshold ↔ h.SetsBrightnessAbove call.1 := by
  rcases adjustmentStep_cases ok with ⟨unknown, rfl⟩ | ⟨k, target, ends⟩
  · simp only [SetsBrightnessAbove, unknown, reduceCtorEq, false_imp_iff, implies_true]
    exact iff_of_true above trivial
  · rw [update_brightness ends, MultiColorAdjustment.modifyAdjustment_brightness above]
    simp only [AdjustmentCommand.setColorAdjustment, AdjustmentCommand.setTransform_threshold,
      AdjustmentCommand.setTransform_brightness, SetsBrightnessAbove, target, Option.some.injEq]
    constructor
    · intro changed k' a i same pointer here
      subst same
      exact changed i a pointer here
    · intro sets i a pointer here
      exact sets k a i rfl pointer here

/-- After every adjustment command of a run each assigned adjustment has its
brightness above its threshold exactly when every command that returns sets
them so. -/
theorem brightness_throughout_iff {std : IndexSort} {pow : StdPow} {config : HyperionConfig}
    {source now timerNow : Int} {h₀ : Hyperion}
    (constructed : new std config source now timerNow = .ok h₀)
    (calls : List (AdjustmentCommand × (Nat → Int))) :
    Throughout (adjustmentStep pow) (fun h => h.raw2ledAdjustment.BrightnessAboveThreshold)
        h₀ calls ↔
      Along (adjustmentStep pow) (fun h call => ∀ t, h.adjustmentStep pow call = .ok t →
        h.SetsBrightnessAbove call.1) h₀ calls := by
  refine throughout_iff_along (I := fun _ => True) ?_ ?_ trivial (new_brightness constructed)
  · intro _ _ _ _ _
    trivial
  · intro h call t _ above ok
    exact adjustmentStep_brightness above ok

private theorem defaultColors_created :
    createLedColorsAdjustment ⟨true, 16, le_refl 16⟩ .natural 1 [{ leds := some ['*'] }] =
      .ok ⟨[createColorAdjustment .natural { leds := some ['*'] }], [some 0]⟩ := rfl

/-- One LED, and one entry of the colour section that covers it. -/
def defaultColors : HyperionConfig := .ofColors [{ index := 0 }] defaultColors_created

theorem brightness_throughout_start : ∃ h₀ : Hyperion,
    new .stable defaultColors 0 0 0 = .ok h₀ ∧
    (Throughout (adjustmentStep .natural) (fun h => h.raw2ledAdjustment.BrightnessAboveThreshold)
        h₀ [({ brightness := some 1 }, fun _ => 0)] ↔
      Along (adjustmentStep .natural) (fun h call => ∀ t, h.adjustmentStep .natural call = .ok t →
        h.SetsBrightnessAbove call.1) h₀ [({ brightness := some 1 }, fun _ => 0)]) := by
  have returns : evaluates (adjustmentStep .natural) (new .stable defaultColors 0 0 0) []
      (fun _ => true) = true := by decide +kernel
  obtain ⟨h₀, _, constructed, _⟩ := exists_of_evaluates returns
  exact ⟨h₀, constructed, brightness_throughout_iff constructed _⟩

/-- A threshold of 1 is above the brightness of 1/2 it leaves alone. -/
theorem threshold_set_above_brightness : ∃ h₀ : Hyperion,
    new .stable defaultColors 0 0 0 = .ok h₀ ∧
    ¬ Throughout (adjustmentStep .natural) (fun h => h.raw2ledAdjustment.BrightnessAboveThreshold)
        h₀ [({ backlightThreshold := some 1 }, fun _ => 0)] := by
  have raised : evaluates (adjustmentStep .natural) (new .stable defaultColors 0 0 0)
      [({ backlightThreshold := some 1 }, fun _ => 0)]
      (fun h => (h.raw2ledAdjustment.adjustmentOfLed 0).any fun a =>
        a.rgbTransform.brightnessHigh ≤ a.rgbTransform.backlightThreshold) = true := by
    decide +kernel
  obtain ⟨h₀, h, constructed, run, ended⟩ := exists_of_evaluates raised
  refine ⟨h₀, constructed, fun throughout => ?_⟩
  obtain ⟨a, led, low⟩ := (Option.any_eq_true _ _).mp ended
  have above := throughout.reaches run 0 a led
  exact absurd (of_decide_eq_true low) (not_le.mpr above)

end Hyperion

end HyperionNg
