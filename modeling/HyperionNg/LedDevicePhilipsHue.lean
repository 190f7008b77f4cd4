import HyperionNg.Types
import HyperionNg.Json
import HyperionNg.IndexList
import HyperionNg.Library.Execution

/-! The driver of the lamps behind a Hue bridge. The states of the lamps are
read before the first colour and put back after the last; in between a lamp is
sent a command where its colour differs from the one remembered. `float`
arithmetic is taken exactly. -/

namespace HyperionNg

open QString

structure CiColor where
  x : ℚ
  y : ℚ
  bri : ℚ := 0
deriving DecidableEq

structure CiColorTriangle where
  red : CiColor
  green : CiColor
  blue : CiColor
deriving DecidableEq

/-- The parts of Qt and of the mathematical library used. `toJson` is the
indented text; `number` is what `QString::arg` makes of a `float`. -/
structure HueLibrary where
  fromJson : List UInt8 → Option Json
  toJson : QJsonObject → List Char
  number : ℚ → List Char
  powf : ℚ → ℚ → ℚ
  sqrt : ℚ → ℚ

def toInteger (d : ℚ) : Int := Int.tdiv d.num d.den

def qRound (d : ℚ) : Int :=
  if 0 ≤ d then toInteger (d + 1 / 2)
  else toInteger (d - toInteger (d - 1) + 1 / 2) + toInteger (d - 1)

def atoi (text : List Char) : Int :=
  let number := fun digits : List Char => (decimal (digits.takeWhile Char.isDigit) : Int)
  match text.dropWhile fun c => c = ' ' || (9 ≤ c.toNat && c.toNat ≤ 13) with
  | '-' :: digits => -number digits
  | '+' :: digits => number digits
  | digits => number digits

inductive Gamut
  | a
  | b
  | c
deriving DecidableEq, Repr

namespace Gamut

def modelIds : Gamut → List (List Char)
  | .a => ["LLC001", "LLC005", "LLC006", "LLC007", "LLC010", "LLC011", "LLC012", "LLC013",
      "LLC014", "LST001"].map String.toList
  | .b => ["LCT001", "LCT002", "LCT003", "LCT007", "LLM001"].map String.toList
  | .c => ["LLC020", "LST002"].map String.toList

def triangle : Gamut → CiColorTriangle
  | .a => ⟨⟨703 / 1000, 296 / 1000, 0⟩, ⟨2151 / 10000, 7106 / 10000, 0⟩, ⟨138 / 1000, 8 / 100, 0⟩⟩
  | .b => ⟨⟨675 / 1000, 322 / 1000, 0⟩, ⟨4091 / 10000, 518 / 1000, 0⟩, ⟨167 / 1000, 4 / 100, 0⟩⟩
  | .c => ⟨⟨675 / 1000, 322 / 1000, 0⟩, ⟨2151 / 10000, 7106 / 10000, 0⟩, ⟨167 / 1000, 4 / 100, 0⟩⟩

/-- The triangle of a model of no set. -/
def unknown : CiColorTriangle := ⟨⟨1, 0, 0⟩, ⟨0, 1, 0⟩, ⟨0, 0, 0⟩⟩

structure Iterator where
  container : Gamut
  position : Nat
deriving DecidableEq

def find (gamut : Gamut) (modelId : List Char) : Iterator :=
  ⟨gamut, gamut.modelIds.idxOf modelId⟩

def pastEnd (gamut : Gamut) : Iterator := ⟨gamut, gamut.modelIds.length⟩

/-- The third search is compared with the end of the second set. -/
def colorSpace (modelId : List Char) : CiColorTriangle :=
  if Gamut.a.find modelId ≠ Gamut.a.pastEnd then Gamut.a.triangle
  else if Gamut.b.find modelId ≠ Gamut.b.pastEnd then Gamut.b.triangle
  else if Gamut.c.find modelId ≠ Gamut.b.pastEnd then Gamut.c.triangle
  else unknown

end Gamut

def crossProduct (p1 p2 : CiColor) : ℚ := p1.x * p2.y - p1.y * p2.x

def quotient (a b : ℚ) : Id ℚ := a / b

def getDistanceBetweenTwoPoints (lib : HueLibrary) (p1 p2 : CiColor) : ℚ :=
  let dx := p1.x - p2.x
  let dy := p1.y - p2.y
  lib.sqrt (dx * dx + dy * dy)

def closestPoint (lib : HueLibrary) (xy pAB pAC pBC : CiColor) : CiColor :=
  let dAB := getDistanceBetweenTwoPoints lib xy pAB
  let dAC := getDistanceBetweenTwoPoints lib xy pAC
  let dBC := getDistanceBetweenTwoPoints lib xy pBC
  let (lowest, closestPoint) := if dAC < dAB then (dAC, pAC) else (dAB, pAB)
  if dBC < lowest then pBC else closestPoint

section Division

/-! What divides, over what a division does: that of the driver is `quotient`. -/

variable {m : Type → Type} [Monad m] (divide : ℚ → ℚ → m ℚ)

def closestPointToPoint (a b p : CiColor) : m CiColor := do
  let aP : CiColor := { x := p.x - a.x, y := p.y - a.y }
  let aB : CiColor := { x := b.x - a.x, y := b.y - a.y }
  let ab2 := aB.x * aB.x + aB.y * aB.y
  let ap_ab := aP.x * aB.x + aP.y * aB.y
  let t ← divide ap_ab ab2
  let t := if t < 0 then 0 else if 1 < t then 1 else t
  pure { x := a.x + aB.x * t, y := a.y + aB.y * t }

namespace CiColorTriangle

variable (colorSpace : CiColorTriangle)

def pointInLampsReach (p : CiColor) : m Bool := do
  let v1 : CiColor :=
    { x := colorSpace.green.x - colorSpace.red.x, y := colorSpace.green.y - colorSpace.red.y }
  let v2 : CiColor :=
    { x := colorSpace.blue.x - colorSpace.red.x, y := colorSpace.blue.y - colorSpace.red.y }
  let q : CiColor := { x := p.x - colorSpace.red.x, y := p.y - colorSpace.red.y }
  let s ← divide (crossProduct q v2) (crossProduct v1 v2)
  let t ← divide (crossProduct v1 q) (crossProduct v1 v2)
  pure (0 ≤ s ∧ 0 ≤ t ∧ s + t ≤ 1)

/-- What `rgbToCiColor` does from its inside test on. -/
def pointInGamut (lib : HueLibrary) (xy : CiColor) : m CiColor := do
  if ← colorSpace.pointInLampsReach divide xy then
    pure xy
  else
    let pAB ← closestPointToPoint divide colorSpace.red colorSpace.green xy
    let pAC ← closestPointToPoint divide colorSpace.blue colorSpace.red xy
    let pBC ← closestPointToPoint divide colorSpace.green colorSpace.blue xy
    let closest := closestPoint lib xy pAB pAC pBC
    pure { xy with x := closest.x, y := closest.y }

end CiColorTriangle

end Division

def getClosestPointToPoint (a b p : CiColor) : CiColor :=
  (closestPointToPoint quotient a b p).run

namespace CiColorTriangle

def isPointInLampsReach (colorSpace : CiColorTriangle) (p : CiColor) : Bool :=
  (colorSpace.pointInLampsReach quotient p).run

/-- What `rgbToCiColor` computes first. A quotient by 0 is 0, which is what its
tests for `nan` make of it. -/
def chromaticity (lib : HueLibrary) (red green blue : ℚ) : CiColor :=
  let gamma := fun value : ℚ =>
    if 4045 / 100000 < value then lib.powf ((value + 55 / 1000) / (1 + 55 / 1000)) (24 / 10)
    else value / (1292 / 100)
  let r := gamma red
  let g := gamma green
  let b := gamma blue
  let X := r * (649926 / 1000000) + g * (103455 / 1000000) + b * (197109 / 1000000)
  let Y := r * (234327 / 1000000) + g * (743075 / 1000000) + b * (22598 / 1000000)
  let Z := r * 0 + g * (53077 / 1000000) + b * (1035763 / 1000000)
  ⟨X / (X + Y + Z), Y / (X + Y + Z), Y⟩

def gamutStep (lib : HueLibrary) (colorSpace : CiColorTriangle) (xy : CiColor) : CiColor :=
  (colorSpace.pointInGamut quotient lib xy).run

def rgbToCiColor (lib : HueLibrary) (colorSpace : CiColorTriangle) (red green blue : ℚ) :
    CiColor :=
  colorSpace.gamutStep lib (chromaticity lib red green blue)

end CiColorTriangle

structure PhilipsHueLight where
  id : Nat
  black : CiColor
  color : CiColor
  colorSpace : CiColorTriangle
  originalState : List Char
deriving DecidableEq

namespace PhilipsHueLight

def new (lib : HueLibrary) (id : Nat) (originalState modelId : List Char) : PhilipsHueLight :=
  let colorSpace := Gamut.colorSpace modelId
  let black := colorSpace.rgbToCiColor lib 0 0 0
  { id, black, color := black, colorSpace, originalState }

def rgbToCiColor (lib : HueLibrary) (light : PhilipsHueLight) (color : ColorRgb) : CiColor :=
  light.colorSpace.rgbToCiColor lib (color.red.toNat / 255) (color.green.toNat / 255)
    (color.blue.toNat / 255)

end PhilipsHueLight

inductive HueRequest
  | original (originalState : List Char)
  | on
  | off
  | color (switchOn : Bool) (xy : CiColor) (transitiontime : Int)
deriving DecidableEq

def HueRequest.content (lib : HueLibrary) : HueRequest → List Char
  | .original originalState => originalState
  | .on => "\x7b\"on\": true\x7d".toList
  | .off => "\x7b\"on\": false\x7d".toList
  | .color switchOn xy transitiontime =>
    "\x7b".toList ++ (if switchOn then "\"on\": true, ".toList else []) ++
      "\"xy\": [".toList ++ lib.number xy.x ++ ", ".toList ++ lib.number xy.y ++
      "], \"bri\": ".toList ++ (toString (qRound (xy.bri * 255))).toList ++
      ", \"transitiontime\": ".toList ++ (toString transitiontime).toList ++ "\x7d".toList

@[simp] theorem HueRequest.content_original (lib : HueLibrary) (originalState : List Char) :
    (HueRequest.original originalState).content lib = originalState := rfl

structure HuePut where
  lightId : Nat
  request : HueRequest
deriving DecidableEq

/-- The exceptions that leave `write`. -/
inductive HueFault
  | runtimeError (text : List Char)
  | outOfRange
deriving DecidableEq

/-- `puts` are the requests so far, oldest first; `timer` whether it runs. -/
structure LedDevicePhilipsHue where
  ledCount : Int
  host : List Char
  username : List Char
  switchOffOnBlack : Bool
  transitiontime : Int
  lightIds : List Nat
  lights : List PhilipsHueLight := []
  timer : Bool := false
  puts : List HuePut := []
deriving DecidableEq

namespace LedDevicePhilipsHue

open Library.Execution

def init (ledCount : Int) (deviceConfig : QJsonObject) : LedDevicePhilipsHue :=
  let value := fun key => (deviceConfig.value key).getD .null
  { ledCount
    host := cStr ((value "output").toString "")
    username := cStr ((value "username").toString "newdeveloper")
    switchOffOnBlack := (value "switchOffOnBlack").toBool true
    transitiontime := (value "transitiontime").toInt 1
    lightIds := (value "lightIds").toArray.map fun id => unsigned (id.toInt 0) }

def getStateRoute (lightId : Nat) : List Char :=
  "lights/".toList ++ (toString lightId).toList ++ "/state".toList

def getRoute (lightId : Nat) : List Char := "lights/".toList ++ (toString lightId).toList

def getUrl (s : LedDevicePhilipsHue) (route : List Char) : List Char :=
  "http://".toList ++ s.host ++ "/api/".toList ++ s.username ++ '/' :: route

/-- The url and the body of a request, as they go to the bridge. -/
def sent (lib : HueLibrary) (s : LedDevicePhilipsHue) (put : HuePut) : List Char × List Char :=
  (s.getUrl (getStateRoute put.lightId), put.request.content lib)

/-- The values of a lamp that are subject to change; an undefined one is left out. -/
def changingState (state : QJsonObject) : QJsonObject :=
  let member := fun key => ((state.value key).map fun value => (key, value)).toList
  if ((state.value "on").getD .null).toBool false then member "bri" ++ member "on" ++ member "xy"
  else member "on"

/-- One iteration of `saveStates`. The state is checked and collected, but the
text kept for later is that of the object in `modelid`. -/
def saveState (lib : HueLibrary) (get : List Char → List UInt8) (s : LedDevicePhilipsHue)
    (lightId : Nat) : Option PhilipsHueLight := do
  let reader ← lib.fromJson (get (s.getUrl (getRoute lightId)))
  let json := reader.toObject
  let state ← json.value "state"
  let _ ← state.toObject.value "on"
  let mId := ((json.value "modelid").getD .null).toObject
  let modelId := (trimmed (lib.toJson mId)).filter fun c => c ≠ '"'
  let originalState := trimmed (lib.toJson mId)
  some (.new lib lightId originalState modelId)

def saveLights (lib : HueLibrary) (get : List Char → List UInt8) (s : LedDevicePhilipsHue) :
    List Nat → List PhilipsHueLight
  | [] => []
  | lightId :: rest =>
    match s.saveState lib get lightId with
    | some light => light :: s.saveLights lib get rest
    | none => []

def readLightIds (lib : HueLibrary) (get : List Char → List UInt8) (s : LedDevicePhilipsHue)
    (nLights : Nat) : Except HueFault (List Nat) :=
  match lib.fromJson (get (s.getUrl "lights".toList)) with
  | none => .error (.runtimeError ("No lights found at ".toList ++ s.getUrl "lights".toList))
  | some reader =>
    let lightIds := (reader.toObject.keys.take nLights).map fun key => unsigned (atoi (cStr key))
    if lightIds.length ≠ nLights then
      .error (.runtimeError ("Not enough lights found at ".toList ++ s.getUrl "lights".toList))
    else .ok lightIds

def saveStates (lib : HueLibrary) (get : List Char → List UInt8) (s : LedDevicePhilipsHue)
    (nLights : Nat) : Except HueFault LedDevicePhilipsHue := do
  let lightIds ←
    if s.lightIds.length ≠ nLights then s.readLightIds lib get nLights else .ok s.lightIds
  pure { s with lightIds, lights := s.saveLights lib get lightIds }

def switchOn (s : LedDevicePhilipsHue) : LedDevicePhilipsHue :=
  { s with puts := s.puts ++ s.lights.map fun light => ⟨light.id, .on⟩ }

def restoreStates (s : LedDevicePhilipsHue) : LedDevicePhilipsHue :=
  { s with
    puts := s.puts ++ s.lights.map fun light => ⟨light.id, .original light.originalState⟩
    lights := [] }

def areStatesSaved (s : LedDevicePhilipsHue) : Bool := !s.lights.isEmpty

/-- The command of one iteration of `write`, if there is one. -/
def command (s : LedDevicePhilipsHue) (lamp : PhilipsHueLight) (xy : CiColor) :
    Option HueRequest :=
  if xy ≠ lamp.color then
    if s.switchOffOnBlack ∧ lamp.color ≠ lamp.black ∧ xy = lamp.black then some .off
    else if s.switchOffOnBlack ∧ lamp.color = lamp.black ∧ xy ≠ lamp.black then
      some (.color true xy s.transitiontime)
    else some (.color false xy s.transitiontime)
  else none

/-- The loop of `write`: the lamps with their colours, and the requests. -/
def writeColors (lib : HueLibrary) (s : LedDevicePhilipsHue) :
    List PhilipsHueLight → List ColorRgb → Except HueFault (List PhilipsHueLight × List HuePut)
  | lights, [] => .ok (lights, [])
  | [], _ :: _ => .error .outOfRange
  | lamp :: lights, color :: ledValues => do
    let xy := lamp.rgbToCiColor lib color
    let (lights, puts) ← s.writeColors lib lights ledValues
    let request := (s.command lamp xy).map (HuePut.mk lamp.id)
    pure ({ lamp with color := xy } :: lights, request.toList ++ puts)

def savedForWrite (lib : HueLibrary) (get : List Char → List UInt8) (s : LedDevicePhilipsHue) :
    Except HueFault LedDevicePhilipsHue :=
  if s.areStatesSaved then .ok s
  else do
    let s ← s.saveStates lib get (unsigned s.ledCount)
    pure s.switchOn

def write (lib : HueLibrary) (get : List Char → List UInt8) (s : LedDevicePhilipsHue)
    (ledValues : List ColorRgb) : Except HueFault LedDevicePhilipsHue := do
  let s ← s.savedForWrite lib get
  if s.lights.length ≠ unsigned s.ledCount then pure s.restoreStates
  else
    let (lights, puts) ← s.writeColors lib s.lights ledValues
    pure { s with lights, puts := s.puts ++ puts, timer := true }

def switchOff (s : LedDevicePhilipsHue) : LedDevicePhilipsHue :=
  let s := { s with timer := false }
  if s.areStatesSaved then s.restoreStates else s

/-- The timer is a single shot. -/
def timeout (s : LedDevicePhilipsHue) : LedDevicePhilipsHue :=
  if s.timer then { s.restoreStates with timer := false } else s

/-- The calls, and the timeouts of the timer; `get` are the replies of the
bridge at the time of the write. -/
inductive Op
  | write (get : List Char → List UInt8) (ledValues : List ColorRgb)
  | timeout
  | switchOff

def step (lib : HueLibrary) (s : LedDevicePhilipsHue) : Op → Except HueFault LedDevicePhilipsHue
  | .write get ledValues => s.write lib get ledValues
  | .timeout => .ok s.timeout
  | .switchOff => .ok s.switchOff

theorem write_cases {lib : HueLibrary} {get : List Char → List UInt8} {s t : LedDevicePhilipsHue}
    {ledValues : List ColorRgb} (ok : s.write lib get ledValues = .ok t) :
    ∃ u, s.savedForWrite lib get = .ok u ∧
      ((u.lights.length ≠ unsigned u.ledCount ∧ t = u.restoreStates) ∨
        (u.lights.length = unsigned u.ledCount ∧ ∃ lights puts,
          u.writeColors lib u.lights ledValues = .ok (lights, puts) ∧
          t = { u with lights, puts := u.puts ++ puts, timer := true })) := by
  obtain ⟨u, saved, rest⟩ := bind_eq_ok.mp ok
  refine ⟨u, saved, ?_⟩
  split_ifs at rest with missing
  · exact Or.inl ⟨missing, (pure_eq_ok.mp rest).symm⟩
  · obtain ⟨⟨lights, puts⟩, colored, done⟩ := bind_eq_ok.mp rest
    exact Or.inr ⟨not_not.mp missing, lights, puts, colored, (pure_eq_ok.mp done).symm⟩

theorem savedForWrite_of_saved {lib : HueLibrary} {get : List Char → List UInt8}
    {s : LedDevicePhilipsHue} (saved : s.lights ≠ []) : s.savedForWrite lib get = .ok s := by
  have filled : s.areStatesSaved = true := by simpa [areStatesSaved] using saved
  rw [savedForWrite, if_pos filled]

theorem writeColors_cons {lib : HueLibrary} {s : LedDevicePhilipsHue} {lamp : PhilipsHueLight}
    {color : ColorRgb} {lamps lights : List PhilipsHueLight} {ledValues : List ColorRgb}
    {puts : List HuePut}
    (ok : s.writeColors lib (lamp :: lamps) (color :: ledValues) = .ok (lights, puts)) :
    ∃ others later, s.writeColors lib lamps ledValues = .ok (others, later) ∧
      lights = { lamp with color := lamp.rgbToCiColor lib color } :: others ∧
      puts = ((s.command lamp (lamp.rgbToCiColor lib color)).map (HuePut.mk lamp.id)).toList ++
        later := by
  obtain ⟨⟨others, later⟩, rest, done⟩ := bind_eq_ok.mp ok
  obtain ⟨rfl, rfl⟩ := Prod.mk.inj (pure_eq_ok.mp done)
  exact ⟨others, later, rest, rfl, rfl⟩

end LedDevicePhilipsHue

end HyperionNg
