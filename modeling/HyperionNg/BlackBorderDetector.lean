import HyperionNg.Image
import HyperionNg.Library.Search
import Mathlib.Data.Rat.Floor

/-! The black-border detectors. Each of the three looks for the upper left
corner of the picture in one frame; on a letterboxed frame all of them find
the corner that is there. -/

namespace HyperionNg

open Library

structure BlackBorder where
  unknown : Bool
  horizontalSize : Int
  verticalSize : Int
deriving Repr

namespace BlackBorder

/-- `operator==`: unknown borders are equal whatever their sizes. -/
instance : BEq BlackBorder where
  beq border other :=
    if border.unknown then other.unknown
    else other.unknown == false && border.horizontalSize == other.horizontalSize &&
      border.verticalSize == other.verticalSize

theorem beq_iff {a b : BlackBorder} :
    (a == b) = true ↔ a.unknown = b.unknown ∧ (a.unknown = false →
      a.horizontalSize = b.horizontalSize ∧ a.verticalSize = b.verticalSize) := by
  change (if a.unknown then b.unknown
    else b.unknown == false && a.horizontalSize == b.horizontalSize &&
      a.verticalSize == b.verticalSize) = true ↔ _
  cases ha : a.unknown <;> cases hb : b.unknown <;> simp

instance : EquivBEq BlackBorder where
  rfl := by
    intro a
    simp [beq_iff]
  symm := by
    intro a b h
    obtain ⟨kind, sizes⟩ := beq_iff.mp h
    refine beq_iff.mpr ⟨kind.symm, fun known => ?_⟩
    obtain ⟨horizontal, vertical⟩ := sizes (kind.trans known)
    exact ⟨horizontal.symm, vertical.symm⟩
  trans := by
    intro a b c hab hbc
    obtain ⟨kind, sizes⟩ := beq_iff.mp hab
    obtain ⟨kind', sizes'⟩ := beq_iff.mp hbc
    refine beq_iff.mpr ⟨kind.trans kind', fun known => ?_⟩
    obtain ⟨horizontal, vertical⟩ := sizes known
    obtain ⟨horizontal', vertical'⟩ := sizes' (kind.symm.trans known)
    exact ⟨horizontal.trans horizontal', vertical.trans vertical'⟩

theorem unknown_of_beq {a b : BlackBorder} (h : (a == b) = true) : a.unknown = b.unknown :=
  (beq_iff.mp h).1

def ofIndices (firstNonBlackX firstNonBlackY : Option Nat) : BlackBorder where
  unknown := firstNonBlackX.isNone || firstNonBlackY.isNone
  horizontalSize := firstNonBlackY.elim (-1) Nat.cast
  verticalSize := firstNonBlackX.elim (-1) Nat.cast

end BlackBorder

/-- The values of `mode` the configuration schema knows. -/
inductive DetectionMode
  | default
  | classic
  | osd
deriving DecidableEq, Repr

structure BlackBorderDetector where
  blackborderThreshold : UInt8

namespace BlackBorderDetector

/-- The product is exact here and rounded in the source: the double next to 0.2 gives
52 here and 51 there. -/
def calculateThreshold (threshold : ℚ) : UInt8 :=
  UInt8.ofNat (max 0 (min ⌈threshold * 255⌉ 255)).toNat

def create (threshold : ℚ) : BlackBorderDetector := ⟨calculateThreshold threshold⟩

variable {α : Type} [Pixel α] (d : BlackBorderDetector) (image : Image α)

def isBlack (color : α) : Bool :=
  Pixel.red color < d.blackborderThreshold && Pixel.green color < d.blackborderThreshold &&
    Pixel.blue color < d.blackborderThreshold

def isBlackAt (x y : Nat) : Except ImageFault Bool := do
  return d.isBlack (← image.pixel x y)

/-- `!isBlack(color1) || !isBlack(color2) || ..` -/
def anyNotBlack : List (Nat × Nat) → Except ImageFault Bool
  | [] => pure false
  | (x, y) :: rest => do
    if ← d.isBlackAt image x y then anyNotBlack rest else pure true

/-- Three lines from the left and right, three from the top and bottom. -/
def process : Except ImageFault BlackBorder := do
  let width : Int := image.width - 1
  let height : Int := image.height - 1
  let width33percent := image.width / 3
  let height33percent := image.height / 3
  let width66percent := width33percent * 2
  let height66percent := height33percent * 2
  let xCenter := image.width / 2
  let yCenter := image.height / 2
  let firstNonBlackX ← Search.first (fun x => d.anyNotBlack image
    [(unsigned (width - x), yCenter), (x, height33percent), (x, height66percent)]) 0 width33percent
  let firstNonBlackY ← Search.first (fun y => d.anyNotBlack image
    [(xCenter, unsigned (height - y)), (width33percent, y), (width66percent, y)]) 0 height33percent
  pure (BlackBorder.ofIndices firstNonBlackX firstNonBlackY)

/-- Down the diagonal of the top left third, then back left and up. -/
def processClassic : Except ImageFault BlackBorder := do
  let width := image.width / 3
  let height := image.height / 3
  let maxSize := max width height
  let some i ← Search.first (fun i => return !(← d.isBlackAt image (min i width) (min i height)))
    0 maxSize | pure (BlackBorder.ofIndices none none)
  let x ← Search.lower (fun x => d.isBlackAt image x (min i height)) (min i width)
  let y ← Search.lower (fun y => d.isBlackAt image x y) (min i height)
  pure (BlackBorder.ofIndices (some x) (some y))

/-- The columns as in `process`, then the rows at the column that was found;
the loop variable is left at the bound when there is none. -/
def processOsd : Except ImageFault BlackBorder := do
  let width : Int := image.width - 1
  let height : Int := image.height - 1
  let width33percent := image.width / 3
  let height33percent := image.height / 3
  let height66percent := height33percent * 2
  let yCenter := image.height / 2
  let firstNonBlackX ← Search.first (fun x => d.anyNotBlack image
    [(unsigned (width - x), yCenter), (x, height33percent), (x, height66percent)]) 0 width33percent
  let x := firstNonBlackX.getD width33percent
  let firstNonBlackY ← Search.first (fun y => d.anyNotBlack image
    [(x, y), (x, unsigned (height - y)), (unsigned (width - x), y),
      (unsigned (width - x), unsigned (height - y))]) 0 height33percent
  pure (BlackBorder.ofIndices firstNonBlackX firstNonBlackY)

def detect : DetectionMode → Except ImageFault BlackBorder
  | .default => d.process image
  | .classic => d.processClassic image
  | .osd => d.processOsd image

end BlackBorderDetector

end HyperionNg
