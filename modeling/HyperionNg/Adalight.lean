import HyperionNg.Library.FrameSync
import HyperionNg.Types

/-! The Adalight sketch. It takes one serial byte after the other. While no byte is
there the wait for it can time out: the LEDs go off, and when the next byte comes,
what was being received is given up. -/

namespace HyperionNg

namespace Adalight

open Library

def maxLeds : Nat := 500

/-- `FastLED.addLeds` is told of one LED less, the last one being analog. -/
def ledCount : Nat := maxLeds - 1

/-- `prefix` -/
def magic : List UInt8 := [65, 100, 97]

/-- Where the sketch waits for a byte: the counter `i` of the loop over the
magic word, the bytes of the header, and a colour of the LED `idx`. -/
inductive Waiting
  | magic (i : Nat)
  | hi
  | lo (hi : UInt8)
  | chk (hi lo : UInt8)
  | red (idx numLeds : Nat)
  | green (idx numLeds : Nat) (r : UInt8)
  | blue (idx numLeds : Nat) (r g : UInt8)
deriving DecidableEq, Repr

structure Receiver where
  waiting : Waiting := .magic 0
  leds : List ColorRgb := List.replicate maxLeds .black

/-- `FastLED.show()` -/
def shown (leds : List ColorRgb) : List ColorRgb := leds.take ledCount

def dark : List ColorRgb := List.replicate maxLeds .black

/-- `min(MAX_LEDS, (hi<<8) + lo + 1)` in an `int` of `intBits`. -/
def numLeds (intBits : Nat) (hi lo : UInt8) : Nat :=
  (min (maxLeds : Int) (((256 * hi.toNat + lo.toNat + 1 : Nat) : Int).bmod (2 ^ intBits))).toNat

/-- The loop over the LEDs before the LED `idx`. -/
def nextLed (leds : List ColorRgb) (idx numLeds : Nat) : Receiver × List (List ColorRgb) :=
  if idx < numLeds then (⟨.red idx numLeds, leds⟩, [])
  else (⟨.magic 0, leds⟩, [shown leds])

/-- A turn of the loop over the magic word. A byte that is not the next one sets
`i` to 0 before the loop counts it up: the search goes on with the second one. -/
def search (i : Nat) (b : UInt8) : Waiting :=
  let i := (if magic[i]? = some b then i else 0) + 1
  if i < magic.length then .magic i else .hi

def read (intBits : Nat) (s : Receiver) (b : UInt8) : Receiver × List (List ColorRgb) :=
  match s.waiting with
  | .magic i => ({ s with waiting := search i b }, [])
  | .hi => ({ s with waiting := .lo b }, [])
  | .lo hi => ({ s with waiting := .chk hi b }, [])
  | .chk hi lo =>
    if b ≠ hi ^^^ lo ^^^ 0x55 then ({ s with waiting := .magic 0 }, [])
    else nextLed dark 0 (numLeds intBits hi lo)
  | .red idx numLeds => ({ s with waiting := .green idx numLeds b }, [])
  | .green idx numLeds r => ({ s with waiting := .blue idx numLeds r b }, [])
  | .blue idx numLeds r g => nextLed (s.leds.set idx ⟨r, g, b⟩) (idx + 1) numLeds

/-- What a wait that returns `false` leads to. -/
def giveUp : Waiting → Waiting
  | .magic _ => .magic 1
  | _ => .magic 0

def offTimeout : UInt32 := 15000

/-- A turn of the loop that waits, where no byte is there: the clock as it is compared,
and as it is read again for the next timeout. Or a byte that ends the wait, with the
clock as it is read where the byte completes a picture. -/
inductive Event
  | poll (now later : UInt32)
  | byte (b : UInt8) (now : UInt32)
deriving DecidableEq, Repr

end Adalight

/-- `dataAvailable` is that of the wait which goes on. -/
structure Adalight extends Adalight.Receiver where
  dataAvailable : Bool := true
  endTime : UInt32 := 0

namespace Adalight

def poll (s : Adalight) (now later : UInt32) : Adalight × List (List ColorRgb) :=
  if s.endTime < now then
    ({ s with leds := dark, dataAvailable := false, endTime := later + offTimeout },
      [shown dark])
  else (s, [])

/-- The sketch when the wait has ended; a byte that ends a wait which has timed out is
read by the next wait. -/
def awake (s : Adalight) : Receiver :=
  if s.dataAvailable then s.toReceiver else ⟨giveUp s.waiting, s.leds⟩

def byte (intBits : Nat) (s : Adalight) (b : UInt8) (now : UInt32) :
    Adalight × List (List ColorRgb) :=
  let taken := read intBits s.awake b
  let endTime := if taken.2 = [] then s.endTime else now + offTimeout
  (⟨taken.1, true, endTime⟩, taken.2)

def step (intBits : Nat) (s : Adalight) : Event → Adalight × List (List ColorRgb)
  | .poll now later => s.poll now later
  | .byte b now => s.byte intBits b now

end Adalight

end HyperionNg
