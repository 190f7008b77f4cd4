import HyperionNg.Types
import HyperionNg.Library.RingBuffer

/-! The LightBerry sketch for APA102 LEDs: a machine that reads at most one
serial byte a turn into a ring of 256, looks for a header in it, and issues the
bytes behind the header to the LEDs, one a turn. -/

namespace HyperionNg

namespace Lightberry

def magic : List UInt8 := [65, 100, 97]

def headerSize : Nat := magic.length + 3

def serialTimeout : Nat := 15000

inductive Mode
  | header
  | hold
  | data
deriving DecidableEq, Repr

/-- What the sketch does to the outside: `Serial.print("Ada\n")`, switching all
LEDs off, a byte to the LEDs, and the start of the latch. -/
inductive Output
  | ack
  | off
  | issue (b : UInt8)
  | latch
deriving DecidableEq, Repr

/-- The LEDs that are switched off, each with its four bytes. -/
def dark : List UInt8 := (List.replicate 25000 [0, 0, 0, 0xFF]).flatten

instance buffer_neZero : NeZero 256 := ⟨by decide⟩

/-- The difference of two readings of a clock, an `unsigned long`. -/
def elapsed (now since : Nat) : Nat := (now + 2 ^ 32 - since % 2 ^ 32) % 2 ^ 32

end Lightberry

/-- The variables of the sketch; the indices are `uint8_t`. -/
structure Lightberry where
  buffer : Fin 256 → UInt8
  indexIn : Fin 256 := 0
  indexOut : Fin 256 := 0
  mode : Lightberry.Mode := .header
  bytesBuffered : Nat := 0
  hold : Nat := 0
  bytesRemaining : Nat := 0
  startTime : Nat
  lastByteTime : Nat
  lastAckTime : Nat

namespace Lightberry

/-- No byte has been read at the time `t`. -/
def idle (s : Lightberry) (t : Nat) : Lightberry × List Output :=
  let silent := decide (1000 < elapsed t s.lastAckTime)
  let dark := decide (serialTimeout < elapsed t s.lastByteTime)
  ({ s with
      lastAckTime := if silent then t else s.lastAckTime
      lastByteTime := if dark then t else s.lastByteTime },
    (if silent then [.ack] else []) ++ if dark then [.off] else [])

/-- The check for serial input; `serial` is what the port has. -/
def readSerial (s : Lightberry) (serial : List UInt8) (t : Nat) :
    Lightberry × List UInt8 × List Output :=
  if s.bytesBuffered < 256 then
    match serial with
    | c :: serial =>
      ({ s with
          buffer := Function.update s.buffer s.indexIn c
          indexIn := s.indexIn + 1
          bytesBuffered := s.bytesBuffered + 1
          lastByteTime := t
          lastAckTime := t }, serial, [])
    | [] => ((s.idle t).1, [], (s.idle t).2)
  else ((s.idle t).1, serial, (s.idle t).2)

/-- The loop that compares the magic word: both indices count up with every
comparison, so that a third byte that differs leaves `i` at its end as well. -/
def compare (buffer : Fin 256 → UInt8) : List UInt8 → Fin 256 → Nat → Fin 256 × Nat
  | [], indexOut, i => (indexOut, i)
  | m :: rest, indexOut, i =>
    if buffer indexOut = m then compare buffer rest (indexOut + 1) (i + 1)
    else (indexOut + 1, i + 1)

def frameSize (hi lo : UInt8) : Nat :=
  let count := 256 * hi.toNat + lo.toNat
  4 * count + 4 + (count + 15) / 16

def seekHeader (s : Lightberry) : Lightberry :=
  if headerSize ≤ s.bytesBuffered then
    let (indexOut, i) := compare s.buffer magic s.indexOut 0
    if i = magic.length then
      let hi := s.buffer indexOut
      let lo := s.buffer (indexOut + 1)
      let chk := s.buffer (indexOut + 1 + 1)
      if chk = hi ^^^ lo ^^^ 0x55 then
        { s with
          indexOut := indexOut + 1 + 1 + 1
          bytesRemaining := frameSize hi lo
          bytesBuffered := s.bytesBuffered - 3 - i
          mode := .hold }
      else { s with indexOut, bytesBuffered := s.bytesBuffered - i }
    else { s with indexOut, bytesBuffered := s.bytesBuffered - i }
  else s

def issueByte (s : Lightberry) (micros : Nat) : Lightberry × List Output :=
  if 0 < s.bytesRemaining then
    if 0 < s.bytesBuffered then
      ({ s with
          indexOut := s.indexOut + 1
          bytesBuffered := s.bytesBuffered - 1
          bytesRemaining := s.bytesRemaining - 1 }, [.issue (s.buffer s.indexOut)])
    else (s, [])
  else ({ s with startTime := micros, hold := 1000, mode := .header }, [.latch])

/-- The `switch` over the mode. -/
def act (s : Lightberry) (micros : Nat) : Lightberry × List Output :=
  match s.mode with
  | .header => (s.seekHeader, [])
  | .hold =>
    if elapsed micros s.startTime < s.hold then (s, [])
    else { s with mode := .data }.issueByte micros
  | .data => s.issueByte micros

def turn (s : Lightberry) (serial : List UInt8) (millis micros : Nat) :
    Lightberry × List UInt8 × List Output :=
  let (s, serial, first) := s.readSerial serial millis
  let (s, second) := s.act micros
  (s, serial, first ++ second)

end Lightberry

end HyperionNg
