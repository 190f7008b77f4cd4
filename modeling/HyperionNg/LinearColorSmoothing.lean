import HyperionNg.Types
import HyperionNg.Library.Execution
import HyperionNg.Library.Rounding
import HyperionNg.Library.DelayLine

/-! The smoothing in front of the device. A write sets a target and the time it
is due; the ticks of the timer move the colours towards it and hand them, after
the output delay, to the device. Single-precision arithmetic is taken up to its
rounding. -/

namespace HyperionNg

open Library Library.Execution

/-- `written` are the calls of `setLedValues` on the device, latest first;
`timer` is the interval of the running timer. The times have no initial value. -/
structure LinearColorSmoothing where
  updateInterval : Int
  settlingTime : Int
  outputDelay : Nat
  continuousOutput : Bool
  timer : Option Int := none
  targetTime : Int := 0
  targetValues : List ColorRgb := []
  previousTime : Int := 0
  previousValues : List ColorRgb := []
  outputQueue : List (List ColorRgb) := []
  writeToLedsEnable : Bool := true
  enabled : Bool := true
  written : List (List ColorRgb) := []
deriving DecidableEq

/-- `memcpy` of a whole vector onto the front of another. -/
def memcpy {α : Type} (dest source : List α) : Except Fault (List α) :=
  if source.length ≤ dest.length then .ok (source ++ dest.drop source.length)
  else .error .undefinedBehaviour

/-- The conversion of an integral `float` to `uint8_t`. -/
def narrowUInt8 (v : Int) : Except Fault UInt8 :=
  if 0 ≤ v ∧ v < 256 then .ok (UInt8.ofNat v.toNat) else .error .undefinedBehaviour

/-- `1.0f - 1.0f * deltaTime / span`; without a span it is not a number, or infinite. -/
def fraction (r : Rounding) (deltaTime span : Int) : Option ℚ :=
  if span = 0 then none else some (r.round (1 - r.round (r.round deltaTime / r.round span)))

/-- One channel of the loop: `prev += (dif < 0 ? -1:1) * std::ceil(k * std::abs(dif))`. -/
def approach (r : Rounding) (k : Option ℚ) (prev target : UInt8) : Except Fault UInt8 :=
  match k with
  | none => .error .undefinedBehaviour
  | some k =>
    let dif : Int := target.toNat - prev.toNat
    narrowUInt8 (prev.toNat + (if dif < 0 then -1 else 1) * ⌈r.round (k * dif.natAbs)⌉)

def approachColor (r : Rounding) (k : Option ℚ) (prev target : ColorRgb) :
    Except Fault ColorRgb := do
  let red ← approach r k prev.red target.red
  let green ← approach r k prev.green target.green
  let blue ← approach r k prev.blue target.blue
  pure ⟨red, green, blue⟩

/-- The loop over `_previousValues`; `_targetValues[i]` is not checked. -/
def approachValues (r : Rounding) (k : Option ℚ) :
    List ColorRgb → List ColorRgb → Except Fault (List ColorRgb)
  | [], _ => .ok []
  | _ :: _, [] => .error .undefinedBehaviour
  | prev :: prevs, target :: targets => do
    let color ← approachColor r k prev target
    let colors ← approachValues r k prevs targets
    pure (color :: colors)

namespace LinearColorSmoothing

def new (ledUpdateFrequencyHz : ℚ) (settlingTimeMs : Int) (updateDelay : Nat)
    (continuousOutput : Bool) : LinearColorSmoothing where
  updateInterval := ⌊1000 / ledUpdateFrequencyHz⌋
  settlingTime := settlingTimeMs
  outputDelay := updateDelay
  continuousOutput

/-- `later` is the second reading of the clock. -/
def write (s : LinearColorSmoothing) (ledValues : List ColorRgb) (now later : Int) :
    Except Fault LinearColorSmoothing :=
  if s.previousValues = [] then
    .ok { s with
      targetTime := now + s.settlingTime
      targetValues := ledValues
      previousTime := later
      previousValues := ledValues
      timer := some s.updateInterval }
  else do
    let targetValues ← memcpy s.targetValues ledValues
    pure { s with targetTime := now + s.settlingTime, targetValues }

/-- The loop over the queue replaces every frame by the black one. -/
def switchOff (s : LinearColorSmoothing) : LinearColorSmoothing :=
  let targetValues := List.replicate s.targetValues.length .black
  { s with
    targetValues
    targetTime := 0
    outputQueue := List.replicate s.outputQueue.length targetValues }

def setLedValues (s : LinearColorSmoothing) (ledColors : List ColorRgb) : LinearColorSmoothing :=
  { s with written := ledColors :: s.written }

def queueColors (s : LinearColorSmoothing) (ledColors : List ColorRgb) : LinearColorSmoothing :=
  if s.outputDelay = 0 then
    if s.writeToLedsEnable then s.setLedValues ledColors else s
  else
    let s := if s.writeToLedsEnable then { s with outputQueue := s.outputQueue ++ [ledColors] }
      else s
    match s.outputQueue with
    | [] => s
    | front :: rest =>
      if s.outputDelay < s.outputQueue.length || !s.writeToLedsEnable then
        { s.setLedValues front with outputQueue := rest }
      else s

/-- The difference is narrowed to `int`. -/
def deltaTime (s : LinearColorSmoothing) (now : Int) : Int := (s.targetTime - now).bmod (2 ^ 32)

def updateLeds (r : Rounding) (s : LinearColorSmoothing) (now : Int) :
    Except Fault LinearColorSmoothing :=
  if s.deltaTime now < 0 then do
    let previousValues ← memcpy s.previousValues s.targetValues
    let s := { s with previousValues, previousTime := now }
    let s := s.queueColors s.previousValues
    pure { s with writeToLedsEnable := s.continuousOutput }
  else do
    let s := { s with writeToLedsEnable := true }
    let previousValues ← approachValues r (fraction r (s.deltaTime now)
      (s.targetTime - s.previousTime)) s.previousValues s.targetValues
    let s := { s with previousValues, previousTime := now }
    pure (s.queueColors s.previousValues)

def setEnable (s : LinearColorSmoothing) (enable : Bool) : LinearColorSmoothing :=
  if enable then { s with enabled := true }
  else { s with enabled := false, timer := none, previousValues := [] }

inductive Op
  | write (ledValues : List ColorRgb) (now later : Int)
  | switchOff
  | setEnable (enable : Bool)
  | updateLeds (now : Int)

/-- A timer that does not run has no timeouts. -/
def step (r : Rounding) (s : LinearColorSmoothing) : Op → Except Fault LinearColorSmoothing
  | .write ledValues now later => s.write ledValues now later
  | .switchOff => .ok s.switchOff
  | .setEnable enable => .ok (s.setEnable enable)
  | .updateLeds now => if s.timer.isSome then s.updateLeds r now else .ok s

def Op.times : Op → List Int
  | .write _ now later => [now, later]
  | .updateLeds now => [now]
  | _ => []

end LinearColorSmoothing

end HyperionNg
