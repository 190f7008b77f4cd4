import HyperionNg.Image
import HyperionNg.Json
import HyperionNg.Library.Lines
import HyperionNg.Library.WebSocket

/-! A connection of the JSON server. Its buffer holds raw lines until it
contains an upgrade request, and WebSocket frames afterwards. The texts handed
to `handleMessage` are kept as the UTF-8 they are converted from. -/

namespace HyperionNg

open Library Bytes

/-- What stops a read: an index outside the buffer, or an array that would
outgrow its `int` size. -/
inductive SocketFault
  | outsideBuffer
  | exhausted
deriving DecidableEq, Repr

/-- The parts of Qt a connection writes with: the compact text of an object,
and the base64 text of a SHA-1 hash. -/
structure Qt where
  toJson : QJsonObject → List UInt8
  sha1Base64 : List UInt8 → List UInt8

def Qt.silent : Qt where
  toJson _ := []
  sha1Base64 _ := []

def ascii (text : String) : List UInt8 := text.toList.map fun c => UInt8.ofNat c.toNat

namespace QByteArray

def byteAt (bytes : List UInt8) (i : Nat) : Except SocketFault UInt8 :=
  match bytes[i]? with
  | some b => .ok b
  | none => .error .outsideBuffer

/-- A loop of `at(index + i)` for `i < n`. -/
def bytesAt (bytes : List UInt8) (index n : Nat) : Except SocketFault (List UInt8) :=
  if index + n ≤ bytes.length then .ok ((bytes.drop index).take n) else .error .outsideBuffer

/-- `mid(pos, len)`; a negative `len` asks for the rest. -/
def mid (bytes : List UInt8) (pos : Nat) (len : Int) : List UInt8 :=
  if len < 0 then bytes.drop pos else (bytes.drop pos).take len.toNat

/-- `indexOf(pattern, start)`, or -1. -/
def indexOf (bytes pattern : List UInt8) (start : Nat) : Int :=
  match (List.range (bytes.length + 1)).find? fun i =>
      decide (start ≤ i) && pattern.isPrefixOf (bytes.drop i) with
  | some i => i
  | none => -1

/-- A C string, or a `QString` made of a byte array, ends at the first zero. -/
def cString (bytes : List UInt8) : List UInt8 := bytes.takeWhile (· ≠ 0)

end QByteArray

open QByteArray

/-- `handled` are the texts handed to `handleMessage`, and `written` the bytes
written to the socket, in order. -/
structure JsonClientConnection where
  receiveBuffer : List UInt8 := []
  webSocketHandshakeDone : Bool := false
  handled : List (List UInt8) := []
  written : List UInt8 := []
  closed : Bool := false

namespace Opcode

def text : UInt8 := 0x1
def close : UInt8 := 0x8
def ping : UInt8 := 0x9
def pong : UInt8 := 0xA

end Opcode

def newline : UInt8 := 10

def upgradeRequest : List UInt8 := ascii "Upgrade: websocket"

namespace JsonClientConnection

def bhb0Opcode : UInt8 := 0x0F
def bhb0Fin : UInt8 := 0x80
def bhb1Payload : UInt8 := 0x7F
def payloadSizeCode16bit : Nat := 0x7E
def payloadSizeCode64bit : Nat := 0x7F

def write (c : JsonClientConnection) (bytes : List UInt8) : JsonClientConnection :=
  { c with written := c.written ++ bytes }

def close (c : JsonClientConnection) : JsonClientConnection :=
  { c.write [0x88, 0] with closed := true, webSocketHandshakeDone := false }

/-- The loop over `result[i]`, which grows the array where it is too short. -/
def unmask (result : List UInt8) (maskKey : List UInt8) (payloadLength : Nat) :
    Except SocketFault (List UInt8) :=
  if 2 ^ 31 ≤ payloadLength then .error .exhausted
  else .ok ((List.range payloadLength).map fun i => result.getD i 0 ^^^ maskKey.getD (i % 4) 0)

def readPayloadLength (receiveBuffer : List UInt8) (code : Nat) : Except SocketFault (Nat × Nat) :=
  if code = payloadSizeCode16bit then
    (bytesAt receiveBuffer 2 2).map fun bytes => (ofBigEndian bytes, 4)
  else if code = payloadSizeCode64bit then
    (bytesAt receiveBuffer 2 8).map fun bytes => (ofBigEndian bytes, 10)
  else .ok (code, 2)

def readMaskKey (receiveBuffer : List UInt8) (isMasked : Bool) (index : Nat) :
    Except SocketFault (Option (List UInt8) × Nat) :=
  if isMasked then (bytesAt receiveBuffer index 4).map fun key => (some key, index + 4)
  else .ok (none, index)

def handleText (c : JsonClientConnection) (index payloadLength : Nat)
    (maskKey : Option (List UInt8)) : Except SocketFault JsonClientConnection := do
  let result := mid c.receiveBuffer index (signed payloadLength)
  let c := { c with receiveBuffer := [] }
  let result ← maskKey.elim (.ok result) (unmask result · payloadLength)
  pure { c with handled := c.handled ++ [cString result] }

/-- One frame is taken to start the buffer and to be complete. Only a text
frame takes anything out of the buffer. -/
def handleWebSocketFrame (c : JsonClientConnection) :
    Except SocketFault JsonClientConnection := do
  let first ← byteAt c.receiveBuffer 0
  if first &&& bhb0Fin = bhb0Fin then
    let opCode := first &&& bhb0Opcode
    let second ← byteAt c.receiveBuffer 1
    let isMasked := decide (second &&& bhb0Fin = bhb0Fin)
    let (payloadLength, index) ← readPayloadLength c.receiveBuffer (second &&& bhb1Payload).toNat
    let (maskKey, index) ← readMaskKey c.receiveBuffer isMasked index
    if opCode = Opcode.text then c.handleText index payloadLength maskKey
    else if opCode = Opcode.close then pure c.close
    else if opCode = Opcode.ping then pure (c.write [Opcode.pong, 0])
    else pure c
  else pure c.close

/-- The key is whatever follows the first `Sec-WebSocket-Key`. -/
def doWebSocketHandshake (qt : Qt) (c : JsonClientConnection) : JsonClientConnection :=
  let start := (indexOf c.receiveBuffer (ascii "Sec-WebSocket-Key") 0 + 19).toNat
  let stop := indexOf c.receiveBuffer (ascii "\r\n") start
  let value := cString (mid c.receiveBuffer start (stop - start)) ++
    ascii "258EAFA5-E914-47DA-95CA-C5AB0DC85B11"
  let answer := ascii "HTTP/1.1 101 Switching Protocols\r\nUpgrade: websocket\r\n" ++
    ascii "Connection: Upgrade\r\nSec-WebSocket-Accept: " ++ qt.sha1Base64 value ++
    ascii "\r\n\r\n"
  { c.write answer with receiveBuffer := [], webSocketHandshakeDone := true }

def readLines (c : JsonClientConnection) : JsonClientConnection :=
  if newline ∈ c.receiveBuffer then
    let bytes := c.receiveBuffer.idxOf newline + 1
    readLines { c with
      receiveBuffer := c.receiveBuffer.drop bytes
      handled := c.handled ++ [c.receiveBuffer.take bytes] }
  else c
termination_by c.receiveBuffer.length
decreasing_by
  have some : 0 < c.receiveBuffer.length := List.length_pos_of_mem ‹_›
  simp only [List.length_drop]
  omega

/-- One read; a closed socket delivers nothing. -/
def readData (qt : Qt) (c : JsonClientConnection) (bytes : List UInt8) :
    Except SocketFault JsonClientConnection :=
  if c.closed then .ok c
  else
    let c := { c with receiveBuffer := c.receiveBuffer ++ bytes }
    if c.webSocketHandshakeDone then c.handleWebSocketFrame
    else if upgradeRequest <:+: c.receiveBuffer then .ok (c.doWebSocketHandshake qt)
    else .ok c.readLines

/-- The frame of a reply: one length byte, or two behind `0x7E`. -/
def frameReply (serializedReply : List UInt8) : List UInt8 :=
  let size := unsigned serializedReply.length
  let length := if 125 < size then
      [0x7E, UInt8.ofNat (size / 2 ^ 8 % 2 ^ 8), UInt8.ofNat (size % 2 ^ 8)]
    else [UInt8.ofNat size]
  0x81 :: (length ++ serializedReply)

def sendMessage (qt : Qt) (c : JsonClientConnection) (message : QJsonObject) :
    JsonClientConnection :=
  let serializedReply := qt.toJson message ++ [newline]
  if c.webSocketHandshakeDone then c.write (frameReply serializedReply)
  else c.write serializedReply

theorem readLines_eq (c : JsonClientConnection) : c.readLines = { c with
    receiveBuffer := (Lines.splitLines newline c.receiveBuffer).2
    handled := c.handled ++ (Lines.splitLines newline c.receiveBuffer).1 } := by
  fun_induction readLines c with
  | case1 c found bytes ih =>
    obtain ⟨text, rest, buffer, absent⟩ := List.eq_append_cons_of_mem found
    have first : bytes = (text ++ [newline]).length := by
      simp [bytes, buffer, List.idxOf_append_of_notMem absent]
    have cut : c.receiveBuffer = (text ++ [newline]) ++ rest := by simp [buffer]
    have line : Lines.Line newline (text ++ [newline]) := ⟨text, absent, rfl⟩
    rw [ih, first, cut, List.drop_left, List.take_left, Lines.splitLines_line line]
    simp
  | case2 c absent =>
    rw [Lines.splitLines_of_not_mem absent, List.append_nil]

end JsonClientConnection

end HyperionNg
