import HyperionNg.Types
import Mathlib.Data.List.Sort
import Mathlib.Data.Rat.Floor

/-! The LED layout: which configured LEDs are normal ones and which are clones
of another LED, each kind sorted by index. -/

namespace HyperionNg

def colorOrderToString : ColorOrder → String
  | .rgb => "rgb"
  | .rbg => "rbg"
  | .grb => "grb"
  | .brg => "brg"
  | .gbr => "gbr"
  | .bgr => "bgr"

def stringToColorOrder (order : String) : ColorOrder :=
  if order = "rgb" then .rgb
  else if order = "bgr" then .bgr
  else if order = "rbg" then .rbg
  else if order = "brg" then .brg
  else if order = "gbr" then .gbr
  else if order = "grb" then .grb
  else .rgb

theorem stringToColorOrder_colorOrderToString (order : ColorOrder) :
    stringToColorOrder (colorOrderToString order) = order := by
  cases order <;> decide

/-- One element of the `leds` array, with the defaults of `toInt`, `toDouble`
and `toString` filled in. -/
structure LedConfig where
  index : Int
  clone : Int := -1
  hscanMinimum : ℚ := 0
  hscanMaximum : ℚ := 0
  vscanMinimum : ℚ := 0
  vscanMaximum : ℚ := 0
  colorOrder : Option String := none

structure Led where
  index : Nat
  minXFrac : ℚ
  maxXFrac : ℚ
  minYFrac : ℚ
  maxYFrac : ℚ
  clone : Int
  colorOrder : ColorOrder
deriving DecidableEq

namespace Led

/-- `Led::index` is an `unsigned`. -/
def unsignedIndex (index : Int) : Nat := (index % 2 ^ 32).toNat

def clamp (x : ℚ) : ℚ := max 0 (min 1 x)

def validClone (maxLedId : Nat) (clone : Int) : Int :=
  if clone < -1 ∨ maxLedId ≤ clone then -1 else clone

/-- The `Led` one iteration of the two constructors builds. -/
def ofConfig (deviceOrder : ColorOrder) (maxLedId : Nat) (c : LedConfig) : Led :=
  let clone := validClone maxLedId c.clone
  let colorOrder := stringToColorOrder (c.colorOrder.getD (colorOrderToString deviceOrder))
  if clone < 0 then
    { index := unsignedIndex c.index
      minXFrac := min (clamp c.hscanMinimum) (clamp c.hscanMaximum)
      maxXFrac := max (clamp c.hscanMinimum) (clamp c.hscanMaximum)
      minYFrac := min (clamp c.vscanMinimum) (clamp c.vscanMaximum)
      maxYFrac := max (clamp c.vscanMinimum) (clamp c.vscanMaximum)
      clone, colorOrder }
  else
    { index := unsignedIndex c.index
      minXFrac := 0, maxXFrac := 0, minYFrac := 0, maxYFrac := 0
      clone, colorOrder }

def isNormal (led : Led) : Bool := led.clone < 0

end Led

/-- `std::sort` by index: some sorted permutation, of which the order among
equal indices is not known. -/
structure IndexSort where
  sort : List Led → List Led
  perm : ∀ leds, (sort leds).Perm leds
  sorted : ∀ leds, (sort leds).Pairwise (fun lhs rhs => lhs.index ≤ rhs.index)

def IndexSort.stable : IndexSort where
  sort leds := leds.insertionSort (fun lhs rhs => lhs.index ≤ rhs.index)
  perm leds := List.perm_insertionSort _ _
  sorted leds := by
    have total : Std.Total (fun lhs rhs : Led => lhs.index ≤ rhs.index) :=
      ⟨fun a b => le_total a.index b.index⟩
    have trans : IsTrans Led (fun lhs rhs => lhs.index ≤ rhs.index) :=
      ⟨fun a b c => le_trans⟩
    exact List.pairwise_insertionSort _ leds

def configuredLeds (ledsConfig : List LedConfig) (deviceOrder : ColorOrder) : List Led :=
  ledsConfig.map (Led.ofConfig deviceOrder ledsConfig.length)

def createLedString (std : IndexSort) (ledsConfig : List LedConfig)
    (deviceOrder : ColorOrder) : List Led :=
  std.sort ((configuredLeds ledsConfig deviceOrder).filter Led.isNormal)

def createLedStringClone (std : IndexSort) (ledsConfig : List LedConfig)
    (deviceOrder : ColorOrder) : List Led :=
  std.sort ((configuredLeds ledsConfig deviceOrder).filter (fun led => !led.isNormal))

end HyperionNg
