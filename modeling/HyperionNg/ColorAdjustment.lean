import HyperionNg.Types
import Mathlib.Data.Rat.Floor

/-! The colour pipeline in front of the device: gamma, brightness and
backlight of `RgbTransform`, then the eight corner adjustments. The gamma
tables are given, and the two sum limits are exact rationals. -/

namespace HyperionNg

structure RgbChannelAdjustment where
  adjustR : UInt8
  adjustG : UInt8
  adjustB : UInt8
deriving DecidableEq

namespace RgbChannelAdjustment

def mapping (adjust input : UInt8) : UInt8 :=
  UInt8.ofNat (min (input.toNat * adjust.toNat / 255) 255)

def getAdjustmentR (a : RgbChannelAdjustment) (inputR : UInt8) : UInt8 := mapping a.adjustR inputR

def getAdjustmentG (a : RgbChannelAdjustment) (inputG : UInt8) : UInt8 := mapping a.adjustG inputG

def getAdjustmentB (a : RgbChannelAdjustment) (inputB : UInt8) : UInt8 := mapping a.adjustB inputB

end RgbChannelAdjustment

structure RgbTransform where
  backlightThreshold : ℚ
  backlightColored : Bool
  brightnessHigh : ℚ
  sumBrightnessLow : ℚ
  sumBrightnessHigh : ℚ
  gammaR : ℚ := 1
  gammaG : ℚ := 1
  gammaB : ℚ := 1
  mappingR : UInt8 → UInt8
  mappingG : UInt8 → UInt8
  mappingB : UInt8 → UInt8
  backLightEnabled : Bool

namespace RgbTransform

/-- `value *= factor` on a `uint8_t`: the product is truncated, and reduced
modulo 256 where it does not fit. -/
def scale (factor : ℚ) (value : UInt8) : UInt8 :=
  UInt8.ofNat ⌊factor * value.toNat⌋.toNat

/-- All three channels are mapped through the red table, as in the source. -/
def transform (t : RgbTransform) (color : ColorRgb) : ColorRgb :=
  let red := t.mappingR color.red
  let green := t.mappingR color.green
  let blue := t.mappingR color.blue
  let rgbSum := red.toNat + green.toNat + blue.toNat
  if 0 < t.sumBrightnessHigh ∧ t.sumBrightnessHigh < rgbSum then
    let cH := t.sumBrightnessHigh / rgbSum
    ⟨scale cH red, scale cH green, scale cH blue⟩
  else if t.backLightEnabled ∧ 0 < t.sumBrightnessLow ∧ rgbSum < t.sumBrightnessLow then
    if t.backlightColored then
      let raise := fun value : UInt8 => if rgbSum = 0 ∧ value = 0 then 1 else value
      let red := raise red
      let green := raise green
      let blue := raise blue
      let rgbSum := red.toNat + green.toNat + blue.toNat
      let cL : ℚ := min ⌊t.sumBrightnessLow / rgbSum⌋ 255
      ⟨scale cL red, scale cL green, scale cL blue⟩
    else
      let red := UInt8.ofNat (min ⌊t.sumBrightnessLow / 3⌋ 255).toNat
      ⟨red, red, red⟩
  else ⟨red, green, blue⟩

end RgbTransform

structure ColorAdjustment where
  id : String
  rgbBlackAdjustment : RgbChannelAdjustment
  rgbWhiteAdjustment : RgbChannelAdjustment
  rgbRedAdjustment : RgbChannelAdjustment
  rgbGreenAdjustment : RgbChannelAdjustment
  rgbBlueAdjustment : RgbChannelAdjustment
  rgbCyanAdjustment : RgbChannelAdjustment
  rgbMagentaAdjustment : RgbChannelAdjustment
  rgbYellowAdjustment : RgbChannelAdjustment
  rgbTransform : RgbTransform

/-- One iteration of `applyAdjustment`. -/
def ColorAdjustment.apply (adjustment : ColorAdjustment) (color : ColorRgb) : ColorRgb :=
  let o := adjustment.rgbTransform.transform color
  let ored := o.red.toNat
  let ogreen := o.green.toNat
  let oblue := o.blue.toNat
  let nrng := (255 - ored) * (255 - ogreen)
  let rng := ored * (255 - ogreen)
  let nrg := (255 - ored) * ogreen
  let rg := ored * ogreen
  let black := UInt8.ofNat (nrng * (255 - oblue) / 65025)
  let red := UInt8.ofNat (rng * (255 - oblue) / 65025)
  let green := UInt8.ofNat (nrg * (255 - oblue) / 65025)
  let blue := UInt8.ofNat (nrng * oblue / 65025)
  let cyan := UInt8.ofNat (nrg * oblue / 65025)
  let magenta := UInt8.ofNat (rng * oblue / 65025)
  let yellow := UInt8.ofNat (rg * (255 - oblue) / 65025)
  let white := UInt8.ofNat (rg * oblue / 65025)
  let sum := fun get : RgbChannelAdjustment → UInt8 → UInt8 =>
    get adjustment.rgbBlackAdjustment black + get adjustment.rgbRedAdjustment red +
      get adjustment.rgbGreenAdjustment green + get adjustment.rgbBlueAdjustment blue +
      get adjustment.rgbCyanAdjustment cyan + get adjustment.rgbMagentaAdjustment magenta +
      get adjustment.rgbYellowAdjustment yellow + get adjustment.rgbWhiteAdjustment white
  ⟨sum RgbChannelAdjustment.getAdjustmentR, sum RgbChannelAdjustment.getAdjustmentG,
    sum RgbChannelAdjustment.getAdjustmentB⟩

def ColorAdjustment.default : ColorAdjustment where
  id := "default"
  rgbBlackAdjustment := ⟨0, 0, 0⟩
  rgbWhiteAdjustment := ⟨255, 255, 255⟩
  rgbRedAdjustment := ⟨255, 0, 0⟩
  rgbGreenAdjustment := ⟨0, 255, 0⟩
  rgbBlueAdjustment := ⟨0, 0, 255⟩
  rgbCyanAdjustment := ⟨0, 255, 255⟩
  rgbMagentaAdjustment := ⟨255, 0, 255⟩
  rgbYellowAdjustment := ⟨255, 255, 0⟩
  rgbTransform :=
    { backlightThreshold := 0, backlightColored := false, brightnessHigh := 1 / 2
      sumBrightnessLow := 0, sumBrightnessHigh := 255
      mappingR := fun red => red, mappingG := fun green => green, mappingB := fun blue => blue
      backLightEnabled := true }

/-- A pointer into `_adjustment` is the position of the adjustment there. -/
structure MultiColorAdjustment where
  adjustment : List ColorAdjustment
  ledAdjustments : List (Option Nat)

namespace MultiColorAdjustment

def uniform (ledCount : Nat) : MultiColorAdjustment :=
  ⟨[.default], List.replicate ledCount (some 0)⟩

def setBacklightEnabled (m : MultiColorAdjustment) (enable : Bool) : MultiColorAdjustment :=
  { m with adjustment := m.adjustment.map fun a =>
      { a with rgbTransform := { a.rgbTransform with backLightEnabled := enable } } }

def adjustmentOfLed (m : MultiColorAdjustment) (i : Nat) : Option ColorAdjustment :=
  (m.ledAdjustments[i]?).join.bind (m.adjustment[·]?)

def applyAdjustment (m : MultiColorAdjustment) (ledColors : List ColorRgb) : List ColorRgb :=
  ledColors.mapIdx fun i color =>
    match m.adjustmentOfLed i with
    | some adjustment => adjustment.apply color
    | none => color

/-- The repair of `verifyAdjustments` on one adjustment; at threshold 0 and
brightness 1/2 the two sum limits are exactly 0 and 255. -/
def repairBrightness (a : ColorAdjustment) : ColorAdjustment :=
  if a.rgbTransform.brightnessHigh ≤ a.rgbTransform.backlightThreshold then
    { a with rgbTransform := { a.rgbTransform with
        backlightThreshold := 0
        sumBrightnessLow := 0
        brightnessHigh := 1 / 2
        sumBrightnessHigh := 255 } }
  else a

/-- `none` stands for the result `false`. -/
def verifyAdjustments (m : MultiColorAdjustment) : Option MultiColorAdjustment :=
  m.ledAdjustments.foldlM (fun m pointer => do
    let i ← pointer
    let _ ← m.adjustment[i]?
    pure { m with adjustment := m.adjustment.modify i repairBrightness }) m

private theorem repairBrightness_backLightEnabled (a : ColorAdjustment) :
    (repairBrightness a).rgbTransform.backLightEnabled = a.rgbTransform.backLightEnabled := by
  unfold repairBrightness
  split_ifs <;> rfl

private theorem repairBrightness_idem (a : ColorAdjustment) :
    repairBrightness (repairBrightness a) = repairBrightness a := by
  by_cases low : a.rgbTransform.brightnessHigh ≤ a.rgbTransform.backlightThreshold
  · simp [repairBrightness, low]
  · simp [repairBrightness, low]

theorem repairBrightness_lt (a : ColorAdjustment) :
    (repairBrightness a).rgbTransform.backlightThreshold <
      (repairBrightness a).rgbTransform.brightnessHigh := by
  unfold repairBrightness
  split_ifs with low
  · norm_num
  · exact not_le.mp low

theorem foldlM_repairBrightness {pointers : List (Option Nat)} {m verified : MultiColorAdjustment}
    (ok : pointers.foldlM (fun m pointer => do
      let i ← pointer
      let _ ← m.adjustment[i]?
      pure { m with adjustment := m.adjustment.modify i repairBrightness }) m = some verified) :
    verified.ledAdjustments = m.ledAdjustments ∧
      ∀ k, verified.adjustment[k]? = (m.adjustment[k]?).map fun a =>
        if some k ∈ pointers then repairBrightness a else a := by
  induction pointers generalizing m with
  | nil =>
    rw [← Option.some.inj ok]
    simp
  | cons pointer rest ih =>
    cases pointer with
    | none => simp at ok
    | some i =>
      cases hi : m.adjustment[i]? with
      | none => simp [hi] at ok
      | some a =>
        have restOk : rest.foldlM (fun m pointer => do
            let i ← pointer
            let _ ← m.adjustment[i]?
            pure { m with adjustment := m.adjustment.modify i repairBrightness })
            { m with adjustment := m.adjustment.modify i repairBrightness } = some verified := by
          simpa [hi] using ok
        obtain ⟨same, repaired⟩ := ih restOk
        refine ⟨same, fun k => ?_⟩
        rw [repaired, List.getElem?_modify]
        by_cases here : i = k
        · subst here
          simp [hi, repairBrightness_idem]
        · simp [here, Ne.symm here]

theorem verifyAdjustments_spec {m verified : MultiColorAdjustment}
    (ok : m.verifyAdjustments = some verified) :
    verified.ledAdjustments = m.ledAdjustments ∧
      ∀ k, verified.adjustment[k]? = (m.adjustment[k]?).map fun a =>
        if some k ∈ m.ledAdjustments then repairBrightness a else a :=
  foldlM_repairBrightness ok

theorem verifyAdjustments_backlight {m verified : MultiColorAdjustment} {enable : Bool}
    (h : ∀ a ∈ m.adjustment, a.rgbTransform.backLightEnabled = enable)
    (ok : m.verifyAdjustments = some verified) :
    ∀ a ∈ verified.adjustment, a.rgbTransform.backLightEnabled = enable := by
  intro a ha
  obtain ⟨k, hk⟩ := List.mem_iff_getElem?.mp ha
  rw [(verifyAdjustments_spec ok).2 k] at hk
  obtain ⟨b, hb, rfl⟩ := Option.map_eq_some_iff.mp hk
  have before := h b (List.mem_of_getElem? hb)
  split_ifs
  · rw [repairBrightness_backLightEnabled, before]
  · exact before

@[simp] theorem applyAdjustment_length (m : MultiColorAdjustment) (ledColors : List ColorRgb) :
    (m.applyAdjustment ledColors).length = ledColors.length := by
  simp [applyAdjustment]

@[simp] theorem setBacklightEnabled_setBacklightEnabled (m : MultiColorAdjustment) (a b : Bool) :
    (m.setBacklightEnabled a).setBacklightEnabled b = m.setBacklightEnabled b := by
  simp [setBacklightEnabled]

theorem setBacklightEnabled_eq_self (m : MultiColorAdjustment) (enable : Bool)
    (h : ∀ a ∈ m.adjustment, a.rgbTransform.backLightEnabled = enable) :
    m.setBacklightEnabled enable = m := by
  have hmap : m.adjustment.map (fun a =>
      { a with rgbTransform := { a.rgbTransform with backLightEnabled := enable } }) =
      m.adjustment := by
    refine (List.map_congr_left fun a ha => ?_).trans (List.map_id _)
    rw [← h a ha]
    rfl
  rw [setBacklightEnabled, hmap]

end MultiColorAdjustment

end HyperionNg
