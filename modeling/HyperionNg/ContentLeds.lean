import HyperionNg.Library.ForLoop
import Mathlib.Data.Rat.Floor

/-! The LED layouts that the configuration page generates: LEDs around the
screen, and LEDs in a matrix. Numbers are exact; a form holds whole numbers. -/

namespace HyperionNg.ContentLeds

open Library.ForLoop

structure Scan where
  minimum : ℚ
  maximum : ℚ
deriving DecidableEq, Repr

structure Area where
  hscan : Scan
  vscan : Scan
deriving DecidableEq, Repr

structure Led where
  index : Nat
  area : Area
deriving DecidableEq, Repr

/-- To four decimal places. `Math.round` rounds a half up. -/
def round (number : ℚ) : ℚ := ⌊number * 10 ^ 4 + 1 / 2⌋ / 10 ^ 4

/-! ### LEDs in a matrix -/

structure MatrixState where
  index : Nat
  leds : List Led
  forward : Bool
  startX : Int
  endX : Int

/-- `addLed(index, x, y)` with the blocks of a matrix of the given size. -/
def addLed (ledshoriz ledsvert : Int) (index : Nat) (x y : Int) : Led :=
  let hblock : ℚ := 1 / ledshoriz
  let vblock : ℚ := 1 / ledsvert
  let hscanMin := x * hblock
  let hscanMax := (x + 1) * hblock
  let vscanMin := y * vblock
  let vscanMax := (y + 1) * vblock
  ⟨index, ⟨round hscanMin, round hscanMax⟩, ⟨round vscanMin, round vscanMax⟩⟩

def createRow (fuel : Nat) (ledshoriz ledsvert : Int) (parallel : Bool) (y : Int)
    (s : MatrixState) : Option MatrixState := do
  let s ← forLoop (fun x => s.forward && decide (x ≤ s.endX) || !s.forward && decide (s.endX ≤ x))
    (if s.forward then 1 else -1)
    (fun x s => some { s with
      leds := s.leds ++ [addLed ledshoriz ledsvert s.index x y]
      index := s.index + 1 })
    fuel s.startX s
  if !parallel then
    some { s with forward := !s.forward, startX := s.endX, endX := s.startX }
  else
    some s

def createMatrixLeds (fuel : Nat) (ledshoriz ledsvert : Int) (cabling start : List Char) :
    Option (List Led) := do
  let parallel := cabling = "parallel".toList
  let startYX := start.splitOn '-'
  let startX := if startYX[1]? = some "right".toList then ledshoriz - 1 else 0
  let startY := if startYX[0]? = some "bottom".toList then ledsvert - 1 else 0
  let endX := if startX = 0 then ledshoriz - 1 else 0
  let endY := if startY = 0 then ledsvert - 1 else 0
  let forward := decide (startX < endX)
  let downward := decide (startY < endY)
  let s ← forLoop (fun y => downward && decide (y ≤ endY) || !downward && decide (endY ≤ y))
    (if downward then 1 else -1) (createRow fuel ledshoriz ledsvert parallel) fuel startY
    ⟨0, [], forward, startX, endX⟩
  some s.leds

/-! ### LEDs around the screen -/

structure ClassicForm where
  top : Int
  bottom : Int
  left : Int
  right : Int
  glength : Int
  gpos : Int
  position : Int
  reverse : Bool
  vdepth : Int
  hdepth : Int
  edgegap : Int
  overlap : Int

def valScan (val : ℚ) : ℚ := if val > 1 then 1 else if val < 0 then 0 else val

namespace ClassicForm

variable (f : ClassicForm)

def ledsVDepth : ℚ := f.vdepth / 100

def ledsHDepth : ℚ := f.hdepth / 100

def edgeVGap : ℚ := f.edgegap / 100 / 2

def edgeHGap : ℚ := f.edgeVGap / (16 / 9)

def Vmin : ℚ := 0 + f.edgeVGap

def Vmax : ℚ := 1 - f.edgeVGap

def Hmin : ℚ := 0 + f.edgeHGap

def Hmax : ℚ := 1 - f.edgeHGap

def Hdiff : ℚ := f.Hmax - f.Hmin

def Vdiff : ℚ := f.Vmax - f.Vmin

def ovl (scan : Char) (val : ℚ) : ℚ :=
  if scan = '+' then valScan (val + f.overlap / 4000) else valScan (val - f.overlap / 4000)

end ClassicForm

def createLedArray (hmin hmax vmin vmax : ℚ) (ledArray : List Area) : List Area :=
  ledArray ++ [⟨⟨round hmin, round hmax⟩, ⟨round vmin, round vmax⟩⟩]

def createTopLeds (fuel : Nat) (f : ClassicForm) : List Area → Option (List Area) :=
  let step := (f.Hmax - f.Hmin) / f.top
  let vmin := f.Vmin
  let vmax := vmin + f.ledsHDepth
  forLoop (fun i => i < f.top) 1 (fun i ledArray =>
    let hmin := f.ovl '-' (f.Hdiff / f.top * i + f.edgeHGap)
    let hmax := f.ovl '+' (f.Hdiff / f.top * i + step + f.edgeHGap)
    some (createLedArray hmin hmax vmin vmax ledArray)) fuel 0

def createLeftLeds (fuel : Nat) (f : ClassicForm) : List Area → Option (List Area) :=
  let step := (f.Vmax - f.Vmin) / f.left
  let hmin := f.Hmin
  let hmax := hmin + f.ledsVDepth
  forLoop (fun i => i > -1) (-1) (fun i ledArray =>
    let vmin := f.ovl '-' (f.Vdiff / f.left * i + f.edgeVGap)
    let vmax := f.ovl '+' (f.Vdiff / f.left * i + step + f.edgeVGap)
    some (createLedArray hmin hmax vmin vmax ledArray)) fuel (f.left - 1)

def createRightLeds (fuel : Nat) (f : ClassicForm) : List Area → Option (List Area) :=
  let step := (f.Vmax - f.Vmin) / f.right
  let hmax := f.Hmax
  let hmin := hmax - f.ledsVDepth
  forLoop (fun i => i < f.right) 1 (fun i ledArray =>
    let vmin := f.ovl '-' (f.Vdiff / f.right * i + f.edgeVGap)
    let vmax := f.ovl '+' (f.Vdiff / f.right * i + step + f.edgeVGap)
    some (createLedArray hmin hmax vmin vmax ledArray)) fuel 0

def createBottomLeds (fuel : Nat) (f : ClassicForm) : List Area → Option (List Area) :=
  let step := (f.Hmax - f.Hmin) / f.bottom
  let vmax := f.Vmax
  let vmin := vmax - f.ledsHDepth
  forLoop (fun i => i > -1) (-1) (fun i ledArray =>
    let hmin := f.ovl '-' (f.Hdiff / f.bottom * i + f.edgeHGap)
    let hmax := f.ovl '+' (f.Hdiff / f.bottom * i + step + f.edgeHGap)
    some (createLedArray hmin hmax vmin vmax ledArray)) fuel (f.bottom - 1)

section Arrays

variable {α : Type}

/-- `array.splice(start, deleteCount)`, which removes nothing when the count is
negative. -/
def splice (array : List α) (start deleteCount : Int) : List α :=
  let first := if start < 0 then max (array.length + start) 0 else min start array.length
  let count := min (max deleteCount 0) (array.length - first)
  array.take first.toNat ++ array.drop (first + count).toNat

/-- `array.push(array.shift())`; an empty array gives `undefined`. -/
def pushShift : List (Option α) → List (Option α)
  | [] => [none]
  | a :: rest => rest ++ [a]

/-- `array.unshift(array.pop())` -/
def unshiftPop (array : List (Option α)) : List (Option α) :=
  array.getLast?.join :: array.dropLast

def rotateArray (array : List (Option α)) (times : Int) : List (Option α) :=
  if times > 0 then pushShift^[times.toNat] array else unshiftPop^[(-times).toNat] array

end Arrays

def correctGap (length ledsgpos ledsglength : Int) : Int × Int :=
  (if ledsgpos + ledsglength > length then max 0 (length - ledsglength) else ledsgpos,
    if ledsglength ≥ length then length - ledsglength - 1 else ledsglength)

/-- There is no area in `undefined`. -/
def createFinalArray (array : List (Option Area)) : Option (List Led) :=
  array.zipIdx.mapM fun led => led.1.map (Led.mk led.2)

def createClassicLeds (fuel : Nat) (f : ClassicForm) : Option (List Led) := do
  let ledArray ← createTopLeds fuel f []
  let ledArray ← createRightLeds fuel f ledArray
  let ledArray ← createBottomLeds fuel f ledArray
  let ledArray ← createLeftLeds fuel f ledArray
  let (ledsgpos, ledsglength) := correctGap ledArray.length f.gpos f.glength
  let ledArray := if ledsglength ≠ 0 then splice ledArray ledsgpos ledsglength else ledArray
  let ledArray := ledArray.map some
  let ledArray := if f.position ≠ 0 then rotateArray ledArray f.position else ledArray
  let ledArray := if f.reverse then ledArray.reverse else ledArray
  createFinalArray ledArray

end HyperionNg.ContentLeds
