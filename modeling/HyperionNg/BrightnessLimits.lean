import HyperionNg.LedAdjustments

/-! The stages of `RgbTransform::transform`: the gamma tables first, then the
brightness cap or the backlight, each of which is decided by the sum of the
mapped colour. -/

namespace HyperionNg

def ColorRgb.sum (c : ColorRgb) : Nat := c.red.toNat + c.green.toNat + c.blue.toNat

def ColorRgb.peak (c : ColorRgb) : Nat := max c.red.toNat (max c.green.toNat c.blue.toNat)

theorem ColorRgb.le_peak (c : ColorRgb) (channel : Channel) :
    (channel.ofColor c).toNat ≤ c.peak := by
  cases channel <;> simp [Channel.ofColor, peak]

theorem ColorRgb.exists_peak (c : ColorRgb) :
    ∃ channel : Channel, (channel.ofColor c).toNat = c.peak := by
  rcases max_choice c.red.toNat (max c.green.toNat c.blue.toNat) with red | other
  · exact ⟨.red, red.symm⟩
  · rcases max_choice c.green.toNat c.blue.toNat with green | blue
    · exact ⟨.green, (other.trans green).symm⟩
    · exact ⟨.blue, (other.trans blue).symm⟩

theorem ColorRgb.peak_le_sum (c : ColorRgb) : c.peak ≤ c.sum := by
  unfold peak sum
  omega

theorem ColorRgb.sum_le_peak (c : ColorRgb) : c.sum ≤ 3 * c.peak := by
  unfold peak sum
  omega

namespace RgbTransform

def mapped (t : RgbTransform) (color : ColorRgb) : ColorRgb :=
  ⟨t.mappingR color.red, t.mappingR color.green, t.mappingR color.blue⟩

/-- The brightness cap, with `cH`. -/
def capped (t : RgbTransform) (m : ColorRgb) : ColorRgb :=
  let cH := t.sumBrightnessHigh / m.sum
  ⟨scale cH m.red, scale cH m.green, scale cH m.blue⟩

/-- Black is raised to the darkest grey before it is scaled. -/
def zeroAdjusted (m : ColorRgb) : ColorRgb := if m.sum = 0 then ⟨1, 1, 1⟩ else m

/-- The factor `cL` of the coloured backlight. -/
def backlightFactor (t : RgbTransform) (m : ColorRgb) : ℚ :=
  min ⌊t.sumBrightnessLow / (zeroAdjusted m).sum⌋ 255

def coloredBacklight (t : RgbTransform) (m : ColorRgb) : ColorRgb :=
  let factor := t.backlightFactor m
  let raised := zeroAdjusted m
  ⟨scale factor raised.red, scale factor raised.green, scale factor raised.blue⟩

def greyBacklight (t : RgbTransform) : ColorRgb :=
  let red := UInt8.ofNat (min ⌊t.sumBrightnessLow / 3⌋ 255).toNat
  ⟨red, red, red⟩

def CapActive (t : RgbTransform) (m : ColorRgb) : Prop :=
  0 < t.sumBrightnessHigh ∧ t.sumBrightnessHigh < m.sum

def BacklightActive (t : RgbTransform) (m : ColorRgb) : Prop :=
  t.backLightEnabled ∧ 0 < t.sumBrightnessLow ∧ m.sum < t.sumBrightnessLow

instance (t : RgbTransform) (m : ColorRgb) : Decidable (t.CapActive m) :=
  inferInstanceAs (Decidable (_ ∧ _))

instance (t : RgbTransform) (m : ColorRgb) : Decidable (t.BacklightActive m) :=
  inferInstanceAs (Decidable (_ ∧ _ ∧ _))

def limited (t : RgbTransform) (m : ColorRgb) : ColorRgb :=
  if t.CapActive m then t.capped m
  else if t.BacklightActive m then
    if t.backlightColored then t.coloredBacklight m else t.greyBacklight
  else m

theorem raise_eq (m : ColorRgb) (channel : Channel) :
    (if m.sum = 0 ∧ channel.ofColor m = 0 then 1 else channel.ofColor m) =
      channel.ofColor (zeroAdjusted m) := by
  by_cases dark : m.sum = 0
  · have zero : channel.ofColor m = 0 := by
      apply UInt8.toNat_inj.mp
      have peak := m.le_peak channel
      have sum := m.peak_le_sum
      rw [UInt8.toNat_zero]
      omega
    rw [if_pos ⟨dark, zero⟩, zeroAdjusted, if_pos dark]
    cases channel <;> rfl
  · rw [if_neg fun both => dark both.1, zeroAdjusted, if_neg dark]

theorem transform_eq (t : RgbTransform) (color : ColorRgb) :
    t.transform color = t.limited (t.mapped color) := by
  have red := raise_eq (t.mapped color) .red
  have green := raise_eq (t.mapped color) .green
  have blue := raise_eq (t.mapped color) .blue
  simp only [Channel.ofColor] at red green blue
  have backlight : (⟨scale (t.backlightFactor (t.mapped color)) (zeroAdjusted (t.mapped color)).red,
      scale (t.backlightFactor (t.mapped color)) (zeroAdjusted (t.mapped color)).green,
      scale (t.backlightFactor (t.mapped color)) (zeroAdjusted (t.mapped color)).blue⟩ : ColorRgb) =
      t.coloredBacklight (t.mapped color) := rfl
  unfold limited
  rw [← backlight, backlightFactor, ColorRgb.sum, ← red, ← green, ← blue]
  rfl

/-! ### The gamma tables -/

def ownTables (t : RgbTransform) (color : ColorRgb) : ColorRgb :=
  ⟨t.mappingR color.red, t.mappingG color.green, t.mappingB color.blue⟩

/-- The transform as its three tables suggest it. -/
def reference (t : RgbTransform) (color : ColorRgb) : ColorRgb := t.limited (t.ownTables color)

/-- The same tables under other brightness and backlight settings. -/
def withLimits (t : RgbTransform) (high low : ℚ) (colored enabled : Bool) : RgbTransform :=
  { t with
    sumBrightnessHigh := high
    sumBrightnessLow := low
    backlightColored := colored
    backLightEnabled := enabled }

theorem limited_of_no_limits {t : RgbTransform} (high : t.sumBrightnessHigh = 0)
    (low : t.sumBrightnessLow = 0) (m : ColorRgb) : t.limited m = m := by
  rw [limited, if_neg, if_neg]
  · rintro ⟨-, positive, -⟩
    exact absurd low positive.ne'
  · rintro ⟨positive, -⟩
    exact absurd high positive.ne'

theorem mapped_setGamma (std : StdPow) (t : RgbTransform) (gammaR gammaG gammaB : ℚ)
    (color : ColorRgb) :
    (t.setGamma std gammaR gammaG gammaB).mapped color =
      ⟨gammaTable std gammaR color.red, gammaTable std gammaR color.green,
        gammaTable std gammaR color.blue⟩ := rfl

theorem mapped_eq_ownTables_iff (t : RgbTransform) (color : ColorRgb) :
    t.mapped color = t.ownTables color ↔
      t.mappingR color.green = t.mappingG color.green ∧
        t.mappingR color.blue = t.mappingB color.blue := by
  simp [mapped, ownTables]

/-- Green and blue go through the red table, which shows wherever their own
tables hold something else. -/
theorem transform_eq_reference_iff (t : RgbTransform) (color : ColorRgb) :
    (∀ high low colored enabled,
      (t.withLimits high low colored enabled).transform color =
        (t.withLimits high low colored enabled).reference color) ↔
      t.mappingR color.green = t.mappingG color.green ∧
        t.mappingR color.blue = t.mappingB color.blue := by
  rw [← mapped_eq_ownTables_iff]
  constructor
  · intro same
    have unlimited := same 0 0 false false
    rwa [transform_eq, reference, limited_of_no_limits rfl rfl,
      limited_of_no_limits rfl rfl] at unlimited
  · intro same high low colored enabled
    have stage : (t.withLimits high low colored enabled).mapped color =
        (t.withLimits high low colored enabled).ownTables color := same
    rw [transform_eq, reference, stage]

theorem transform_ne_reference :
    (RgbTransform.new .natural 1 2 1 0 false 1).transform ⟨0, 128, 0⟩ = ⟨0, 128, 0⟩ ∧
      (RgbTransform.new .natural 1 2 1 0 false 1).reference ⟨0, 128, 0⟩ = ⟨0, 64, 0⟩ := by
  decide +kernel

/-! ### The coloured backlight -/

private theorem zeroAdjusted_sum_pos (m : ColorRgb) : 0 < (zeroAdjusted m).sum := by
  unfold zeroAdjusted
  split_ifs with dark
  · decide
  · exact Nat.pos_of_ne_zero dark

theorem zeroAdjusted_of_lit {m : ColorRgb} (lit : m.sum ≠ 0) : zeroAdjusted m = m :=
  if_neg lit

theorem zeroAdjusted_of_dark {m : ColorRgb} (dark : m.sum = 0) : zeroAdjusted m = ⟨1, 1, 1⟩ :=
  if_pos dark

theorem backlightFactor_eq (t : RgbTransform) (m : ColorRgb) (low : 0 < t.sumBrightnessLow) :
    ∃ n : ℕ, t.backlightFactor m = n ∧ n ≤ 255 ∧
      ∀ k : ℕ, n < k ↔ 255 < k ∨ t.sumBrightnessLow < (zeroAdjusted m).sum * k := by
  have nonneg : 0 ≤ ⌊t.sumBrightnessLow / (zeroAdjusted m).sum⌋ :=
    Int.floor_nonneg.mpr (by positivity)
  obtain ⟨n, hn⟩ := Int.eq_ofNat_of_zero_le nonneg
  refine ⟨min n 255, ?_, min_le_right _ _, fun k => ?_⟩
  · rw [backlightFactor, hn]
    push_cast
    rfl
  · have positive : (0 : ℚ) < (zeroAdjusted m).sum := by exact_mod_cast zeroAdjusted_sum_pos m
    have below : n < k ↔ ⌊t.sumBrightnessLow / (zeroAdjusted m).sum⌋ < (k : ℤ) := by
      rw [hn]
      omega
    rw [min_lt_iff, below, Int.floor_lt, div_lt_iff₀ positive, or_comm, mul_comm]
    simp only [Int.cast_natCast]

private theorem scale_natCast (n : ℕ) (value : UInt8) :
    scale n value = UInt8.ofNat (n * value.toNat) := by
  rw [scale, ← Nat.cast_mul, Int.floor_natCast, Int.toNat_natCast]

private theorem coloredBacklight_channel (t : RgbTransform) (m : ColorRgb) (channel : Channel) :
    channel.ofColor (t.coloredBacklight m) =
      scale (t.backlightFactor m) (channel.ofColor (zeroAdjusted m)) := by
  cases channel <;> rfl

/-- A channel of the coloured backlight before its conversion to `uint8_t`. -/
def beforeConversion (t : RgbTransform) (m : ColorRgb) (channel : Channel) : ℚ :=
  t.backlightFactor m * (channel.ofColor (zeroAdjusted m)).toNat

theorem beforeConversion_le_iff (t : RgbTransform) (m : ColorRgb)
    (active : t.BacklightActive m) :
    (∀ channel, t.beforeConversion m channel ≤ 255) ↔
      m.peak ≤ 1 ∨ t.sumBrightnessLow < m.sum * ((255 / m.peak + 1 : ℕ) : ℚ) := by
  obtain ⟨n, factor, le, lt_iff⟩ := t.backlightFactor_eq m active.2.1
  have asNat : ∀ channel, t.beforeConversion m channel ≤ 255 ↔
      n * (channel.ofColor (zeroAdjusted m)).toNat ≤ 255 := by
    intro channel
    rw [beforeConversion, factor]
    exact_mod_cast Iff.rfl
  rw [forall_congr' asNat]
  by_cases dark : m.sum = 0
  · have peak := m.peak_le_sum
    have grey : ∀ channel : Channel, (channel.ofColor (zeroAdjusted m)).toNat = 1 := by
      rw [zeroAdjusted_of_dark dark]
      intro channel
      cases channel <;> rfl
    simp only [grey, mul_one]
    exact iff_of_true (fun _ => le) (Or.inl (by omega))
  · rw [zeroAdjusted_of_lit dark] at lt_iff ⊢
    have peak : (∀ channel : Channel, n * (channel.ofColor m).toNat ≤ 255) ↔ n * m.peak ≤ 255 := by
      constructor
      · intro all
        obtain ⟨channel, at_peak⟩ := m.exists_peak
        exact at_peak ▸ all channel
      · intro top channel
        exact (Nat.mul_le_mul_left n (m.le_peak channel)).trans top
    have positive : 0 < m.peak := by
      have sum := m.sum_le_peak
      omega
    rw [peak, ← Nat.le_div_iff_mul_le positive, ← Nat.lt_succ_iff, Nat.succ_eq_add_one, lt_iff]
    refine or_congr_left ⟨fun large => ?_, fun small => ?_⟩
    · by_contra above
      have half : 255 / m.peak ≤ 255 / 2 := Nat.div_le_div_left (by omega) (by omega)
      omega
    · rw [show m.peak = 1 by omega]
      decide

theorem coloredBacklight_toNat {t : RgbTransform} {m : ColorRgb} (active : t.BacklightActive m)
    (fits : ∀ channel, t.beforeConversion m channel ≤ 255) :
    ∃ n : ℕ, (m.sum = 0 ∨ 1 ≤ n) ∧ ∀ channel : Channel,
      (channel.ofColor (t.coloredBacklight m)).toNat =
        n * (channel.ofColor (zeroAdjusted m)).toNat := by
  obtain ⟨n, factor, -, lt_iff⟩ := t.backlightFactor_eq m active.2.1
  refine ⟨n, ?_, fun channel => ?_⟩
  · by_contra! dark
    rw [zeroAdjusted_of_lit dark.1] at lt_iff
    rcases (lt_iff 1).mp dark.2 with large | low
    · omega
    · rw [Nat.cast_one, mul_one] at low
      exact absurd active.2.2 (not_lt.mpr low.le)
  · have small : n * (channel.ofColor (zeroAdjusted m)).toNat ≤ 255 := by
      have bound := fits channel
      rw [beforeConversion, factor] at bound
      exact_mod_cast bound
    rw [coloredBacklight_channel, factor, scale_natCast, UInt8.toNat_ofNat']
    exact Nat.mod_eq_of_lt (by omega)

/-- The factor is limited to 255 and the products are not, so a colour that
sits in one channel wraps. -/
theorem coloredBacklight_iff (t : RgbTransform) (color : ColorRgb)
    (uncapped : ¬ t.CapActive (t.mapped color)) (active : t.BacklightActive (t.mapped color))
    (colored : t.backlightColored = true) :
    ((∀ channel, t.beforeConversion (t.mapped color) channel ≤ 255) ∧
      (∀ channel : Channel,
        channel.ofColor (t.mapped color) ≤ channel.ofColor (t.transform color)) ∧
      ∀ one two : Channel,
        (one.ofColor (t.transform color)).toNat *
            (two.ofColor (zeroAdjusted (t.mapped color))).toNat =
          (two.ofColor (t.transform color)).toNat *
            (one.ofColor (zeroAdjusted (t.mapped color))).toNat) ↔
      (t.mapped color).peak ≤ 1 ∨
        t.sumBrightnessLow <
          (t.mapped color).sum * ((255 / (t.mapped color).peak + 1 : ℕ) : ℚ) := by
  rw [← t.beforeConversion_le_iff (t.mapped color) active]
  refine ⟨And.left, fun fits => ⟨fits, ?_⟩⟩
  obtain ⟨n, raised, channels⟩ := coloredBacklight_toNat active fits
  have result : t.transform color = t.coloredBacklight (t.mapped color) := by
    rw [transform_eq, limited, if_neg uncapped, if_pos active, if_pos colored]
  rw [result]
  refine ⟨fun channel => ?_, fun one two => ?_⟩
  · rw [UInt8.le_iff_toNat_le, channels]
    by_cases dark : (t.mapped color).sum = 0
    · have peak := (t.mapped color).le_peak channel
      have sum := (t.mapped color).peak_le_sum
      omega
    · rw [zeroAdjusted_of_lit dark]
      exact Nat.le_mul_of_pos_left _ (raised.resolve_left dark)
  · rw [channels, channels]
    ring

theorem coloredBacklight_iff_grey :
    let t := RgbTransform.new .natural 1 1 1 (1 / 2) true 1
    ((∀ channel, t.beforeConversion (t.mapped ⟨60, 50, 40⟩) channel ≤ 255) ∧
      (∀ channel : Channel,
        channel.ofColor (t.mapped ⟨60, 50, 40⟩) ≤ channel.ofColor (t.transform ⟨60, 50, 40⟩)) ∧
      ∀ one two : Channel,
        (one.ofColor (t.transform ⟨60, 50, 40⟩)).toNat *
            (two.ofColor (zeroAdjusted (t.mapped ⟨60, 50, 40⟩))).toNat =
          (two.ofColor (t.transform ⟨60, 50, 40⟩)).toNat *
            (one.ofColor (zeroAdjusted (t.mapped ⟨60, 50, 40⟩))).toNat) ↔
      (t.mapped ⟨60, 50, 40⟩).peak ≤ 1 ∨
        t.sumBrightnessLow <
          (t.mapped ⟨60, 50, 40⟩).sum *
            ((255 / (t.mapped ⟨60, 50, 40⟩).peak + 1 : ℕ) : ℚ) :=
  coloredBacklight_iff _ ⟨60, 50, 40⟩ (by decide +kernel) (by decide +kernel) rfl

/-- Six times 100 is reduced modulo 256. -/
theorem coloredBacklight_wraps :
    let t := (RgbTransform.new .natural 1 1 1 0 true 1).withLimits 765 600 true true
    ¬ t.CapActive (t.mapped ⟨100, 0, 0⟩) ∧ t.BacklightActive (t.mapped ⟨100, 0, 0⟩) ∧
      t.mapped ⟨100, 0, 0⟩ = ⟨100, 0, 0⟩ ∧
      t.beforeConversion (t.mapped ⟨100, 0, 0⟩) .red = 600 ∧
      t.transform ⟨100, 0, 0⟩ = ⟨88, 0, 0⟩ := by
  decide +kernel

/-! ### The brightness cap -/

/-- The same tables under the sum limit `limit` and without backlight. -/
def withCap (t : RgbTransform) (limit : ℚ) : RgbTransform :=
  { t with sumBrightnessHigh := limit, backLightEnabled := false }

theorem transform_setBrightness (std : StdPow) (t : RgbTransform) (brightness : ℚ)
    (disabled : t.backLightEnabled = false) (color : ColorRgb) :
    (t.setBrightness std brightness).transform color =
      (t.withCap (sumBrightness std brightness)).transform color := by
  rw [withCap, ← disabled]
  rfl

theorem transform_withCap (t : RgbTransform) (limit : ℚ) (color : ColorRgb) :
    (t.withCap limit).transform color =
      if 0 < limit ∧ limit < (t.mapped color).sum then (t.withCap limit).capped (t.mapped color)
      else t.mapped color := by
  have dim : ¬ (t.withCap limit).BacklightActive ((t.withCap limit).mapped color) :=
    fun active => absurd active.1 (by simp [withCap])
  rw [transform_eq, limited, if_neg dim]
  rfl

theorem scale_toNat {factor : ℚ} (le : factor ≤ 1) (value : UInt8) :
    (scale factor value).toNat = ⌊factor * value.toNat⌋₊ := by
  have small : ⌊factor * value.toNat⌋₊ ≤ value.toNat := by
    apply Nat.floor_le_of_le
    exact mul_le_of_le_one_left (Nat.cast_nonneg _) le
  have byte := value.toNat_lt
  rw [scale, Int.floor_toNat, UInt8.toNat_ofNat']
  exact Nat.mod_eq_of_lt (by omega)

def remaining (limit : ℚ) (m : ColorRgb) : ℚ := min 1 (limit / m.sum)

private theorem remaining_mono {lower limit : ℚ} (le : lower ≤ limit) (m : ColorRgb) :
    remaining lower m ≤ remaining limit m :=
  min_le_min_left 1 (div_le_div_of_nonneg_right le (Nat.cast_nonneg _))

theorem remaining_mul_sum_le {limit : ℚ} (positive : 0 < limit) (m : ColorRgb) :
    remaining limit m * m.sum ≤ limit := by
  rcases Nat.eq_zero_or_pos m.sum with dark | lit
  · rw [dark, Nat.cast_zero, mul_zero]
    exact positive.le
  · have share : remaining limit m ≤ limit / m.sum := min_le_right _ _
    rwa [le_div_iff₀ (by exact_mod_cast lit)] at share

theorem withCap_toNat (t : RgbTransform) {limit : ℚ} (positive : 0 < limit) (color : ColorRgb)
    (channel : Channel) :
    (channel.ofColor ((t.withCap limit).transform color)).toNat =
      ⌊remaining limit (t.mapped color) * (channel.ofColor (t.mapped color)).toNat⌋₊ := by
  set m := t.mapped color with hm
  rw [transform_withCap, ← hm]
  by_cases exceeds : limit < m.sum
  · have lit : (0 : ℚ) < m.sum := positive.trans exceeds
    have share : limit / m.sum ≤ 1 := (div_le_one lit).mpr exceeds.le
    rw [if_pos ⟨positive, exceeds⟩, remaining, min_eq_right share]
    cases channel <;> exact scale_toNat share _
  · rw [if_neg fun both => exceeds both.2]
    rcases Nat.eq_zero_or_pos m.sum with dark | lit
    · have zero : (channel.ofColor m).toNat = 0 := by
        have peak := m.le_peak channel
        have sum := m.peak_le_sum
        omega
      rw [zero, Nat.cast_zero, mul_zero, Nat.floor_zero]
    · have whole : 1 ≤ limit / m.sum :=
        (one_le_div (by exact_mod_cast lit)).mpr (not_lt.mp exceeds)
      rw [remaining, min_eq_left whole, one_mul, Nat.floor_natCast]

theorem withCap_sum_le (t : RgbTransform) {limit : ℚ} (positive : 0 < limit)
    (color : ColorRgb) : (((t.withCap limit).transform color).sum : ℚ) ≤ limit := by
  set m := t.mapped color with hm
  have nonneg : 0 ≤ remaining limit m :=
    le_min zero_le_one (div_nonneg positive.le (Nat.cast_nonneg _))
  have floor : ∀ channel : Channel,
      ((channel.ofColor ((t.withCap limit).transform color)).toNat : ℚ) ≤
        remaining limit m * (channel.ofColor m).toNat := by
    intro channel
    rw [t.withCap_toNat positive]
    exact Nat.floor_le (mul_nonneg nonneg (Nat.cast_nonneg _))
  have red := floor .red
  have green := floor .green
  have blue := floor .blue
  have total := remaining_mul_sum_le positive m
  simp only [Channel.ofColor, ColorRgb.sum, Nat.cast_add] at red green blue total ⊢
  linarith

private theorem withCap_le_mapped (t : RgbTransform) {limit : ℚ} (positive : 0 < limit)
    (color : ColorRgb) (channel : Channel) :
    channel.ofColor ((t.withCap limit).transform color) ≤ channel.ofColor (t.mapped color) := by
  rw [UInt8.le_iff_toNat_le, t.withCap_toNat positive]
  apply Nat.floor_le_of_le
  exact mul_le_of_le_one_left (Nat.cast_nonneg _) (min_le_left _ _)

private theorem withCap_mono (t : RgbTransform) {lower limit : ℚ} (positive : 0 < lower)
    (le : lower ≤ limit) (color : ColorRgb) (channel : Channel) :
    channel.ofColor ((t.withCap lower).transform color) ≤
      channel.ofColor ((t.withCap limit).transform color) := by
  rw [UInt8.le_iff_toNat_le, t.withCap_toNat positive, t.withCap_toNat (positive.trans_le le)]
  exact Nat.floor_mono (mul_le_mul_of_nonneg_right (remaining_mono le _) (Nat.cast_nonneg _))

/-- A positive limit caps the sum and acts monotonically; the limit 0 means
that there is none. -/
theorem withCap_limits (t : RgbTransform) (color : ColorRgb) :
    (t.withCap 0).transform color = t.mapped color ∧
      ∀ limit : ℚ, 0 < limit →
        (((t.withCap limit).transform color).sum : ℚ) ≤ limit ∧
          ∀ channel : Channel,
            channel.ofColor ((t.withCap limit).transform color) ≤
                channel.ofColor (t.mapped color) ∧
              ∀ lower : ℚ, 0 < lower → lower ≤ limit →
                channel.ofColor ((t.withCap lower).transform color) ≤
                  channel.ofColor ((t.withCap limit).transform color) := by
  constructor
  · rw [transform_withCap, if_neg fun both => lt_irrefl 0 both.1]
  · intro limit positive
    refine ⟨t.withCap_sum_le positive color, fun channel => ⟨?_, ?_⟩⟩
    · exact t.withCap_le_mapped positive color channel
    · intro lower some le
      exact t.withCap_mono some le color channel

theorem withCap_zero_white :
    let t := RgbTransform.new .natural 1 1 1 0 false 0
    t.sumBrightnessHigh = 0 ∧ ((t.withCap 0).transform ⟨255, 255, 255⟩).sum = 765 := by
  decide +kernel

end RgbTransform

end HyperionNg
