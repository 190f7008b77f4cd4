import HyperionNg.Image
import HyperionNg.LedString
import Mathlib.Data.List.ProdSigma

/-! The map from image pixels to LEDs: for every LED the indices of the pixels
under its area, inside the rectangle the borders leave, and the mean colours
computed over them. -/

namespace HyperionNg

/-- `std::round`: to the nearest integer, halves away from zero. -/
def roundHalfAway (x : ℚ) : Int := if 0 ≤ x then ⌊x + 1 / 2⌋ else -⌊-x + 1 / 2⌋

/-- `leds without area` -/
def Led.skipped (led : Led) : Bool :=
  led.maxXFrac - led.minXFrac < 1 / 1000000 || led.maxYFrac - led.minYFrac < 1 / 1000000

/-- The fractions `createLedString` gives every LED. -/
structure Led.Valid (led : Led) : Prop where
  minX_nonneg : 0 ≤ led.minXFrac
  minX_le_maxX : led.minXFrac ≤ led.maxXFrac
  maxX_le_one : led.maxXFrac ≤ 1
  minY_nonneg : 0 ≤ led.minYFrac
  minY_le_maxY : led.minYFrac ≤ led.maxYFrac
  maxY_le_one : led.maxYFrac ≤ 1

structure ImageToLedsMap where
  width : Nat
  height : Nat
  horizontalBorder : Nat
  verticalBorder : Nat
  colorsMap : List (List Nat)

namespace ImageToLedsMap

def boundaries (offset actual : Nat) (minFrac maxFrac : ℚ) : Nat × Nat :=
  let minIdx := unsigned (offset + unsigned (roundHalfAway (actual * minFrac)) : Nat)
  let maxIdx := unsigned (offset + unsigned (roundHalfAway (actual * maxFrac)) : Nat)
  -- make sure that the area is at least a single led large
  let minIdx := min minIdx (unsigned ((offset + actual : Nat) - 1))
  (minIdx, if minIdx = maxIdx then unsigned (minIdx + 1 : Nat) else maxIdx)

def visited (offset actual : Nat) (minFrac maxFrac : ℚ) : List Nat :=
  let (minIdx, maxIdx) := boundaries offset actual minFrac maxFrac
  List.range' minIdx (min maxIdx (unsigned (offset + actual : Nat)) - minIdx)

def positions (xOffset actualWidth yOffset actualHeight : Nat) (led : Led) : List (Nat × Nat) :=
  visited yOffset actualHeight led.minYFrac led.maxYFrac ×ˢ
    visited xOffset actualWidth led.minXFrac led.maxXFrac

def ledColors (width xOffset actualWidth yOffset actualHeight : Nat) (led : Led) : List Nat :=
  if led.skipped then []
  else (positions xOffset actualWidth yOffset actualHeight led).map
    fun (y, x) => unsigned (y * width + x : Nat)

def create (build : Build) (width height horizontalBorder verticalBorder : Nat)
    (leds : List Led) : Except ImageFault ImageToLedsMap := do
  build.assert (unsigned (2 * verticalBorder) < width)
  build.assert (unsigned (2 * horizontalBorder) < height)
  let actualWidth := unsigned (width - 2 * verticalBorder)
  let actualHeight := unsigned (height - 2 * horizontalBorder)
  pure
    { width, height, horizontalBorder, verticalBorder
      colorsMap := leds.map
        (ledColors width verticalBorder actualWidth horizontalBorder actualHeight) }

theorem unsigned_double {border size : Nat} (fits : 2 * border < size) (size_lt : size < 2 ^ 32) :
    unsigned (2 * (border : Int)) = 2 * border := by
  have same : 2 * (border : Int) = ((2 * border : Nat) : Int) := by push_cast; ring
  rw [same]
  exact unsigned_of_lt (by omega)

theorem unsigned_inner {border size : Nat} (fits : 2 * border < size) (size_lt : size < 2 ^ 32) :
    unsigned ((size : Int) - 2 * border) = size - 2 * border := by
  have same : (size : Int) - 2 * border = ((size - 2 * border : Nat) : Int) := by omega
  rw [same]
  exact unsigned_of_lt (by omega)

theorem create_of_fits (build : Build) {width height horizontalBorder verticalBorder : Nat}
    (hw : width < 2 ^ 32) (hh : height < 2 ^ 32) (vertical : 2 * verticalBorder < width)
    (horizontal : 2 * horizontalBorder < height) (leds : List Led) :
    create build width height horizontalBorder verticalBorder leds = .ok
      { width, height, horizontalBorder, verticalBorder
        colorsMap := leds.map (ledColors width verticalBorder (width - 2 * verticalBorder)
          horizontalBorder (height - 2 * horizontalBorder)) } := by
  unfold create
  rw [unsigned_double vertical hw, unsigned_double horizontal hh, unsigned_inner vertical hw,
    unsigned_inner horizontal hh, Build.assert_of (decide_eq_true vertical),
    Build.assert_of (decide_eq_true horizontal)]
  rfl

variable {α : Type} [Pixel α]

/-- The sum of one channel in a `uint_fast16_t`. -/
def accumulate (build : Build) (channel : α → UInt8) (pixels : List α) : Nat :=
  pixels.foldl (fun cumm pixel => (cumm + (channel pixel).toNat) % 2 ^ build.fastBits) 0

def average (build : Build) (channel : α → UInt8) (pixels : List α) : UInt8 :=
  UInt8.ofNat (accumulate build channel pixels / pixels.length)

def meanOf (build : Build) (pixels : List α) : Except ImageFault ColorRgb :=
  if pixels.length = 0 then .error .divisionByZero
  else .ok ⟨average build Pixel.red pixels, average build Pixel.green pixels,
    average build Pixel.blue pixels⟩

def calcMeanColor (build : Build) (image : Image α) (colors : List Nat) :
    Except ImageFault ColorRgb := do
  if colors.length = 0 then
    return ColorRgb.black
  meanOf build (← colors.mapM image.read)

def calcMeanColorOfImage (build : Build) (image : Image α) : Except ImageFault ColorRgb := do
  let imageSize := unsigned (image.width * image.height : Nat)
  meanOf build (← (List.range imageSize).mapM image.read)

def getMeanLedColorInto (build : Build) (map : ImageToLedsMap) (image : Image α)
    (ledColors : List ColorRgb) : Except ImageFault (List ColorRgb) := do
  build.assert (map.colorsMap.length = ledColors.length)
  if ledColors.length < map.colorsMap.length then
    throw .outsideBuffer
  let colors ← map.colorsMap.mapM (calcMeanColor build image)
  pure (colors ++ ledColors.drop colors.length)

def getMeanLedColor (build : Build) (map : ImageToLedsMap) (image : Image α) :
    Except ImageFault (List ColorRgb) :=
  map.getMeanLedColorInto build image (List.replicate map.colorsMap.length ⟨0, 0, 0⟩)

def getUniLedColorInto (build : Build) (map : ImageToLedsMap) (image : Image α)
    (ledColors : List ColorRgb) : Except ImageFault (List ColorRgb) := do
  build.assert (map.colorsMap.length = ledColors.length)
  let color ← calcMeanColorOfImage build image
  pure (List.replicate ledColors.length color)

def getUniLedColor (build : Build) (map : ImageToLedsMap) (image : Image α) :
    Except ImageFault (List ColorRgb) :=
  map.getUniLedColorInto build image (List.replicate map.colorsMap.length ⟨0, 0, 0⟩)

end ImageToLedsMap

end HyperionNg
