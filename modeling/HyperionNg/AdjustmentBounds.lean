import HyperionNg.ColorAdjustment
import HyperionNg.Library.FloorSum

/-! How exact the colour adjustment is. The code truncates the share of each of
the eight corner colours, and then its product with the corner's coefficient;
the sum of the eight bytes fits a byte and stays close to the interpolation. -/

namespace HyperionNg

open Library

inductive Corner
  | black
  | red
  | green
  | blue
  | cyan
  | magenta
  | yellow
  | white
deriving DecidableEq, Repr

namespace Corner

instance : Fintype Corner where
  elems := {black, red, green, blue, cyan, magenta, yellow, white}
  complete := by
    intro corner
    cases corner <;> decide

instance : Nonempty Corner := ⟨black⟩

theorem sum_eq {M : Type} [AddCommMonoid M] (f : Corner → M) :
    ∑ corner, f corner = f black + f red + f green + f blue + f cyan + f magenta + f yellow +
      f white := by
  have all : (Finset.univ : Finset Corner) =
      {black, red, green, blue, cyan, magenta, yellow, white} := rfl
  rw [all]
  simp [add_assoc]

private theorem card_eq : Fintype.card Corner = 8 := rfl

def has : Corner → Channel → Bool
  | black, _ => false
  | red, channel => channel = .red
  | green, channel => channel = .green
  | blue, channel => channel = .blue
  | cyan, channel => channel ≠ .red
  | magenta, channel => channel ≠ .green
  | yellow, channel => channel ≠ .blue
  | white, _ => true

def factor (o : ColorRgb) (corner : Corner) (channel : Channel) : Nat :=
  if corner.has channel then (channel.ofColor o).toNat else 255 - (channel.ofColor o).toNat

/-- `nrng*(255-oblue)` and its seven siblings. -/
def weight (o : ColorRgb) (corner : Corner) : Nat :=
  corner.factor o .red * corner.factor o .green * corner.factor o .blue

theorem factor_le (o : ColorRgb) (corner : Corner) (channel : Channel) :
    corner.factor o channel ≤ 255 := by
  have byte := (channel.ofColor o).toNat_lt
  unfold factor
  split_ifs <;> omega

private theorem weight_le (o : ColorRgb) (corner : Corner) : corner.weight o ≤ 16581375 :=
  calc corner.weight o ≤ 255 * 255 * 255 :=
        Nat.mul_le_mul (Nat.mul_le_mul (factor_le o corner .red) (factor_le o corner .green))
          (factor_le o corner .blue)
    _ = 16581375 := by norm_num

theorem exists_complement {v : Nat} (le : v ≤ 255) : ∃ rest, 255 - v = rest ∧ v + rest = 255 :=
  ⟨255 - v, rfl, by omega⟩

theorem sum_weight (o : ColorRgb) : ∑ corner, Corner.weight o corner = 16581375 := by
  obtain ⟨nr, hr, sumR⟩ := exists_complement (Nat.le_of_lt_succ o.red.toNat_lt)
  obtain ⟨ng, hg, sumG⟩ := exists_complement (Nat.le_of_lt_succ o.green.toNat_lt)
  obtain ⟨nb, hb, sumB⟩ := exists_complement (Nat.le_of_lt_succ o.blue.toNat_lt)
  have expand : ∑ corner, Corner.weight o corner =
      (o.red.toNat + nr) * (o.green.toNat + ng) * (o.blue.toNat + nb) := by
    rw [sum_eq]
    simp only [weight, factor, has, Channel.ofColor, hr, hg, hb]
    simp
    ring
  rw [expand, sumR, sumG, sumB]

theorem sum_weight_has (o : ColorRgb) (channel : Channel) :
    ∑ corner : Corner, (if corner.has channel then corner.weight o else 0) =
      (channel.ofColor o).toNat * 65025 := by
  obtain ⟨nr, hr, sumR⟩ := exists_complement (Nat.le_of_lt_succ o.red.toNat_lt)
  obtain ⟨ng, hg, sumG⟩ := exists_complement (Nat.le_of_lt_succ o.green.toNat_lt)
  obtain ⟨nb, hb, sumB⟩ := exists_complement (Nat.le_of_lt_succ o.blue.toNat_lt)
  rw [sum_eq]
  cases channel with
  | red =>
    have square : 65025 = (o.green.toNat + ng) * (o.blue.toNat + nb) := by rw [sumG, sumB]
    rw [square]
    simp [weight, factor, has, Channel.ofColor, hg, hb]
    ring
  | green =>
    have square : 65025 = (o.red.toNat + nr) * (o.blue.toNat + nb) := by rw [sumR, sumB]
    rw [square]
    simp [weight, factor, has, Channel.ofColor, hr, hb]
    ring
  | blue =>
    have square : 65025 = (o.red.toNat + nr) * (o.green.toNat + ng) := by rw [sumR, sumG]
    rw [square]
    simp [weight, factor, has, Channel.ofColor, hr, hg]
    ring

end Corner

namespace RgbChannelAdjustment

def coefficient (a : RgbChannelAdjustment) : Channel → UInt8
  | .red => a.adjustR
  | .green => a.adjustG
  | .blue => a.adjustB

theorem mapping_toNat (adjust input : UInt8) :
    (mapping adjust input).toNat = input.toNat * adjust.toNat / 255 := by
  have inputByte : input.toNat ≤ 255 := Nat.le_of_lt_succ input.toNat_lt
  have adjustByte : adjust.toNat ≤ 255 := Nat.le_of_lt_succ adjust.toNat_lt
  have small : input.toNat * adjust.toNat / 255 ≤ 255 := by
    apply Nat.div_le_of_le_mul
    exact Nat.mul_le_mul inputByte adjustByte
  rw [mapping, min_eq_left small, UInt8.toNat_ofNat']
  exact Nat.mod_eq_of_lt (by omega)

end RgbChannelAdjustment

namespace ColorAdjustment

def adjustmentOf (a : ColorAdjustment) : Corner → RgbChannelAdjustment
  | .black => a.rgbBlackAdjustment
  | .red => a.rgbRedAdjustment
  | .green => a.rgbGreenAdjustment
  | .blue => a.rgbBlueAdjustment
  | .cyan => a.rgbCyanAdjustment
  | .magenta => a.rgbMagentaAdjustment
  | .yellow => a.rgbYellowAdjustment
  | .white => a.rgbWhiteAdjustment

def term (a : ColorAdjustment) (o : ColorRgb) (channel : Channel) (corner : Corner) : UInt8 :=
  RgbChannelAdjustment.mapping ((a.adjustmentOf corner).coefficient channel)
    (UInt8.ofNat (corner.weight o / 65025))

theorem apply_channel (a : ColorAdjustment) (color : ColorRgb) (channel : Channel) :
    channel.ofColor (a.apply color) =
      let o := a.rgbTransform.transform color
      a.term o channel .black + a.term o channel .red + a.term o channel .green +
        a.term o channel .blue + a.term o channel .cyan + a.term o channel .magenta +
        a.term o channel .yellow + a.term o channel .white := by
  cases channel <;> rfl

theorem term_toNat (a : ColorAdjustment) (o : ColorRgb) (channel : Channel) (corner : Corner) :
    (a.term o channel corner).toNat =
      corner.weight o / 65025 * ((a.adjustmentOf corner).coefficient channel).toNat / 255 := by
  have bound := corner.weight_le o
  rw [term, RgbChannelAdjustment.mapping_toNat, UInt8.toNat_ofNat', Nat.mod_eq_of_lt (by omega)]

theorem sum_term_le (a : ColorAdjustment) (o : ColorRgb) (channel : Channel) :
    ∑ corner, (a.term o channel corner).toNat ≤ 255 := by
  have shrink : ∀ corner : Corner, (a.term o channel corner).toNat ≤ corner.weight o / 65025 := by
    intro corner
    have byte := ((a.adjustmentOf corner).coefficient channel).toNat_lt
    rw [term_toNat]
    apply Nat.div_le_of_le_mul
    rw [Nat.mul_comm]
    exact Nat.mul_le_mul_right _ (by omega)
  calc ∑ corner, (a.term o channel corner).toNat
      ≤ ∑ corner : Corner, corner.weight o / 65025 := Finset.sum_le_sum fun corner _ =>
        shrink corner
    _ ≤ (∑ corner : Corner, corner.weight o) / 65025 := FloorSum.sum_div_le _ _
    _ = 255 := by rw [Corner.sum_weight]

theorem apply_channel_toNat (a : ColorAdjustment) (color : ColorRgb) (channel : Channel) :
    (channel.ofColor (a.apply color)).toNat =
      ∑ corner, (a.term (a.rgbTransform.transform color) channel corner).toNat := by
  have total := a.sum_term_le (a.rgbTransform.transform color) channel
  rw [Corner.sum_eq] at total ⊢
  rw [apply_channel]
  dsimp only
  simp only [UInt8.toNat_add]
  omega

def share (o : ColorRgb) (corner : Corner) (channel : Channel) : ℚ :=
  if corner.has channel then (channel.ofColor o).toNat / 255
  else 1 - (channel.ofColor o).toNat / 255

def trilinear (a : ColorAdjustment) (o : ColorRgb) (channel : Channel) : ℚ :=
  ∑ corner : Corner, share o corner .red * share o corner .green * share o corner .blue *
    ((a.adjustmentOf corner).coefficient channel).toNat

theorem share_eq (o : ColorRgb) (corner : Corner) (channel : Channel) :
    share o corner channel = (corner.factor o channel : ℚ) / 255 := by
  have byte : (channel.ofColor o).toNat ≤ 255 := Nat.le_of_lt_succ (channel.ofColor o).toNat_lt
  unfold share Corner.factor
  split_ifs
  · rfl
  · rw [Nat.cast_sub byte]
    field_simp
    norm_num

theorem trilinear_eq (a : ColorAdjustment) (o : ColorRgb) (channel : Channel) :
    a.trilinear o channel = ∑ corner : Corner, (corner.weight o : ℚ) / (65025 : Nat) *
      ((a.adjustmentOf corner).coefficient channel).toNat / (255 : Nat) := by
  apply Finset.sum_congr rfl
  intro corner _
  rw [share_eq, share_eq, share_eq, Corner.weight]
  push_cast
  ring

def Neutral (a : ColorAdjustment) : Prop :=
  ∀ corner channel, (a.adjustmentOf corner).coefficient channel =
    if corner.has channel then 255 else 0

theorem Neutral.term_toNat {a : ColorAdjustment} (neutral : a.Neutral) (o : ColorRgb)
    (channel : Channel) (corner : Corner) : (a.term o channel corner).toNat =
      (if corner.has channel then corner.weight o else 0) / 65025 := by
  rw [ColorAdjustment.term_toNat, neutral corner channel]
  split_ifs
  · exact Nat.mul_div_cancel _ (by decide)
  · simp

theorem Neutral.sum_term {a : ColorAdjustment} (neutral : a.Neutral) (o : ColorRgb)
    (channel : Channel) : ∑ corner, (a.term o channel corner).toNat ≤ (channel.ofColor o).toNat ∧
      (channel.ofColor o).toNat ≤ ∑ corner, (a.term o channel corner).toNat + 3 := by
  have whole := Corner.sum_weight_has o channel
  simp only [neutral.term_toNat o channel]
  rw [Corner.sum_eq] at whole ⊢
  cases channel with
  | red =>
    simp only [Corner.has] at whole ⊢
    simp at whole ⊢
    omega
  | green =>
    simp only [Corner.has] at whole ⊢
    simp at whole ⊢
    omega
  | blue =>
    simp only [Corner.has] at whole ⊢
    simp at whole ⊢
    omega

/-- What the code promises for one LED colour: the transformed colour `o` and
the adjusted colour `result`. -/
structure AdjustedWithin (a : ColorAdjustment) (o result : ColorRgb) : Prop where
  products : ∀ corner : Corner, corner.weight o < 2 ^ 32
  noWrap : ∀ channel, ∑ corner, (a.term o channel corner).toNat ≤ 255
  value : ∀ channel : Channel, (channel.ofColor result).toNat =
    ∑ corner, (a.term o channel corner).toNat
  upper : ∀ channel : Channel, ((channel.ofColor result).toNat : ℚ) ≤ a.trilinear o channel
  lower : ∀ channel : Channel, a.trilinear o channel < (channel.ofColor result).toNat + 16
  neutral : a.Neutral → ∀ channel : Channel,
    (channel.ofColor result).toNat ≤ (channel.ofColor o).toNat ∧
      (channel.ofColor o).toNat ≤ (channel.ofColor result).toNat + 3

theorem default_neutral : ColorAdjustment.default.Neutral := by
  intro corner channel
  cases corner <;> cases channel <;> rfl

theorem apply_within (a : ColorAdjustment) (color : ColorRgb) :
    a.AdjustedWithin (a.rgbTransform.transform color) (a.apply color) where
  products corner := lt_of_le_of_lt (corner.weight_le _) (by norm_num)
  noWrap := a.sum_term_le _
  value := a.apply_channel_toNat color
  upper channel := by
    rw [apply_channel_toNat, trilinear_eq]
    simp only [term_toNat]
    exact FloorSum.sum_twice_le _ _ _ _
  lower channel := by
    rw [apply_channel_toNat, trilinear_eq]
    simp only [term_toNat]
    have close := FloorSum.sum_lt_twice (d := 65025) (m := 255)
      (w := fun corner : Corner => corner.weight (a.rgbTransform.transform color))
      (k := fun corner => ((a.adjustmentOf corner).coefficient channel).toNat)
      (by decide) (by decide) fun corner =>
        Nat.le_of_lt_succ ((a.adjustmentOf corner).coefficient channel).toNat_lt
    rw [Corner.card_eq] at close
    norm_num at close ⊢
    linarith
  neutral neutral channel := by
    rw [apply_channel_toNat]
    exact neutral.sum_term _ channel

end ColorAdjustment

/-- Every LED colour with an adjustment is adjusted without a wrap, within 16
of the interpolation and, with neutral corners, within 3 of the colour. -/
theorem MultiColorAdjustment.applyAdjustment_within (m : MultiColorAdjustment)
    (ledColors : List ColorRgb) (i : Nat) (color : ColorRgb) (a : ColorAdjustment)
    (led : ledColors[i]? = some color) (adjustment : m.adjustmentOfLed i = some a) :
    ∃ result, (m.applyAdjustment ledColors)[i]? = some result ∧
      a.AdjustedWithin (a.rgbTransform.transform color) result := by
  refine ⟨a.apply color, ?_, a.apply_within color⟩
  simp [applyAdjustment, led, adjustment]

theorem MultiColorAdjustment.applyAdjustment_within_default :
    ∃ result, ((MultiColorAdjustment.uniform 1).applyAdjustment [⟨200, 100, 50⟩])[0]? =
      some result ∧ ColorAdjustment.default.AdjustedWithin
        (ColorAdjustment.default.rgbTransform.transform ⟨200, 100, 50⟩) result :=
  (MultiColorAdjustment.uniform 1).applyAdjustment_within [⟨200, 100, 50⟩] 0 ⟨200, 100, 50⟩
    .default rfl rfl

end HyperionNg
