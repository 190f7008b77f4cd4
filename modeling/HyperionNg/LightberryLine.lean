import HyperionNg.LedDeviceAdalight
import HyperionNg.LightberryStream
import HyperionNg.Library.Execution

/-! The driver in LightBerry mode and its sketch on one serial line. The LEDs get
every frame once and in order, however the sketch's turns and the arrival of the
bytes fall. -/

namespace HyperionNg.Lightberry

open Library Execution LedDeviceAdalight

/-- The bytes of a frame for the LEDs: the end frame is as long as the sketch
counts it, which is less than the driver sends for up to 48 LEDs. -/
def apa102 (ledValues : List ColorRgb) : List UInt8 :=
  List.replicate 4 0 ++ (ledValues.flatMap led ++
    List.replicate ((ledValues.length + 15) / 16) 0)

def picture (ledValues : List ColorRgb) : List Output :=
  (apa102 ledValues).map .issue ++ [.latch]

def surplus (ledCount : Nat) : Nat := max ((ledCount + 15) / 16) 4 - (ledCount + 15) / 16

/-- The driver, the sketch, what the port of the sketch has, and what the sketch
has done. -/
structure Line where
  device : LedDeviceAdalight
  sketch : Lightberry
  serial : List UInt8 := []
  outputs : List Output := []

/-- A frame is written, or the sketch takes a turn at this time. -/
inductive Signal
  | write (ledValues : List ColorRgb)
  | turn (millis micros : Nat)

namespace Signal

def written : Signal → Option (List ColorRgb)
  | .write ledValues => some ledValues
  | .turn _ _ => none

end Signal

namespace Line

def step (line : Line) : Signal → Except Fault Line
  | .write ledValues => do
    let device ← line.device.write ledValues
    .ok { line with device, serial := line.serial ++ device.ledBuffer }
  | .turn millis micros =>
    let (sketch, serial, outputs) := line.sketch.turn line.serial millis micros
    .ok { line with sketch, serial, outputs := line.outputs ++ outputs }

def start (ledCount : Nat) (deviceConfig : QJsonObject) (buffer : Fin 256 → UInt8)
    (millis micros : Nat) : Line where
  device := init ledCount deviceConfig
  sketch := { buffer, startTime := micros, lastByteTime := millis, lastAckTime := millis }

def issued (line : Line) : List Output := line.outputs.filter Output.isData

structure Follows (ledCount : Nat) (frames : List (List ColorRgb)) (line : Line) : Prop where
  made : Made102 ledCount line.device
  inv : Inv line.sketch
  stream : ∀ more, line.issued ++
      parse (phase line.sketch) (queue line.sketch ++ (line.serial ++ more)) =
    parse none (frames.flatMap message102 ++ more)

variable {ledCount : Nat} {frames : List (List ColorRgb)}

theorem Follows.write {line : Line} (follows : Follows ledCount frames line)
    {ledValues : List ColorRgb} (all : ledValues.length = ledCount) :
    ∃ next, line.step (.write ledValues) = .ok next ∧
      Follows ledCount (frames ++ [ledValues]) next := by
  have written : line.step (.write ledValues) = .ok { line with
      device := { line.device with ledBuffer := message102 ledValues }
      serial := line.serial ++ message102 ledValues } := by
    rw [step, follows.made.write all]
    rfl
  refine ⟨_, written, ⟨follows.made.mode, follows.made.count, ledValues, all, rfl⟩, follows.inv,
    fun more => ?_⟩
  have sent := follows.stream (message102 ledValues ++ more)
  rw [← List.append_assoc line.serial, ← List.append_assoc (frames.flatMap message102)] at sent
  rw [List.flatMap_append, List.flatMap_singleton, ← sent]
  rfl

def turned (line : Line) (millis micros : Nat) : Line :=
  let (sketch, serial, outputs) := line.sketch.turn line.serial millis micros
  { line with sketch, serial, outputs := line.outputs ++ outputs }

theorem Follows.turned {line : Line} (follows : Follows ledCount frames line)
    (millis micros : Nat) : Follows ledCount frames (line.turned millis micros) := by
  refine ⟨follows.made, (turn_spec follows.inv line.serial millis micros []).1, fun more => ?_⟩
  have both : (line.turned millis micros).issued = line.issued ++
      (line.sketch.turn line.serial millis micros).2.2.filter Output.isData := List.filter_append ..
  rw [← follows.stream, ← (turn_spec follows.inv line.serial millis micros more).2, both,
    List.append_assoc]
  rfl

theorem Follows.step {line next : Line} (follows : Follows ledCount frames line) {signal : Signal}
    (sized : ∀ ledValues, signal = .write ledValues → ledValues.length = ledCount)
    (taken : line.step signal = .ok next) :
    Follows ledCount (frames ++ signal.written.toList) next := by
  cases signal with
  | write ledValues =>
    obtain ⟨other, written, kept⟩ := follows.write (sized ledValues rfl)
    obtain rfl := Except.ok.inj (taken.symm.trans written)
    exact kept
  | turn millis micros =>
    obtain rfl := Except.ok.inj taken
    rw [Signal.written, Option.toList_none, List.append_nil]
    exact follows.turned millis micros

theorem Follows.reaches {line next : Line} (follows : Follows ledCount frames line)
    {signals : List Signal}
    (sized : ∀ ledValues, .write ledValues ∈ signals → ledValues.length = ledCount)
    (run : Reaches Line.step line signals next) :
    Follows ledCount (frames ++ signals.filterMap Signal.written) next := by
  induction signals generalizing line frames with
  | nil =>
    obtain rfl := reaches_nil.mp run
    rwa [List.filterMap_nil, List.append_nil]
  | cons signal rest ih =>
    obtain ⟨middle, taken, run⟩ := reaches_cons.mp run
    have here := follows.step
      (fun ledValues same => sized ledValues (same ▸ List.mem_cons_self)) taken
    have later := ih here (fun ledValues mem => sized ledValues (List.mem_cons_of_mem signal mem))
      run
    rw [List.append_assoc] at later
    cases signal with
    | write | turn => exact later

end Line

end HyperionNg.Lightberry
