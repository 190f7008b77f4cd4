import HyperionNg.Image
import HyperionNg.ImageCommands
import HyperionNg.Library.Bytes

/-! The messages of the proto server and their frames: four bytes of size, most
significant first, and the serialised message. Both ends of a connection read
them the same way. -/

namespace HyperionNg

open Library Bytes

inductive GrabbingMode
  | off
  | video
  | pause
  | photo
  | audio
  | menu
  | screensaver
  | invalid
deriving DecidableEq, Repr

def GrabbingMode.toInt : GrabbingMode → Int
  | off => 0
  | video => 1
  | pause => 2
  | photo => 3
  | audio => 4
  | menu => 5
  | screensaver => 6
  | invalid => 7

inductive VideoMode
  | video2D
  | video3DSBS
  | video3DTAB
deriving DecidableEq, Repr

def VideoMode.toInt : VideoMode → Int
  | video2D => 0
  | video3DSBS => 1
  | video3DTAB => 2

theorem VideoMode.toInt_inj {first second : VideoMode} (same : first.toInt = second.toInt) :
    first = second := by
  revert same
  cases first <;> cases second <;> decide

namespace Proto

inductive Command
  | color
  | image
  | clear
  | clearall
deriving DecidableEq, Repr

structure ColorRequest where
  priority : Int := 0
  rgbColor : Int := 0
  duration : Option Int := none

structure ClearRequest where
  priority : Int := 0

structure HyperionRequest where
  command : Option Command := none
  colorRequest : Option ColorRequest := none
  imageRequest : Option ImageMessage := none
  clearRequest : Option ClearRequest := none

def HyperionRequest.getCommand (message : HyperionRequest) : Command :=
  message.command.getD .color

inductive ReplyType
  | reply
  | grabbing
  | video
deriving DecidableEq, Repr

structure HyperionReply where
  type : Option ReplyType := none
  success : Option Bool := none
  error : Option String := none
  grabbing : Option Int := none
  video : Option Int := none
deriving DecidableEq

def HyperionReply.getType (reply : HyperionReply) : ReplyType := reply.type.getD .reply

def HyperionReply.getSuccess (reply : HyperionReply) : Bool := reply.success.getD false

/-- `ParseFromArray`: whether the bytes are a message, and what it has filled in
either way. -/
structure Parser where
  parseRequest : List UInt8 → Bool × HyperionRequest
  parseReply : List UInt8 → Bool × HyperionReply

/-- A serialised message; its size is an `int`. -/
abbrev Body := { bytes : List UInt8 // bytes.length < 2 ^ 31 }

def frame (body : Body) : List UInt8 := bigEndian 4 body.val.length ++ body.val

def messageSize (receiveBuffer : List UInt8) : Nat := ofBigEndian (receiveBuffer.take 4)

/-- What `readData` takes for the first message, and the bytes behind it. The
size is added to in `uint32_t`, and a size that is negative as an `int` parses
nothing. -/
def nextMessage (receiveBuffer : List UInt8) : Option (List UInt8 × List UInt8) :=
  if receiveBuffer.length ≤ 4 then none
  else
    let size := messageSize receiveBuffer
    if receiveBuffer.length < unsigned (size + 4) then none
    else some ((receiveBuffer.drop 4).take (signed size).toNat,
      receiveBuffer.drop (unsigned (size + 4)))

@[simp] theorem frame_length (body : Body) : (frame body).length = 4 + body.val.length := by
  simp [frame]

theorem messageSize_lt (receiveBuffer : List UInt8) : messageSize receiveBuffer < 2 ^ 32 := by
  have bound := ofBigEndian_lt (receiveBuffer.take 4)
  have length : (receiveBuffer.take 4).length ≤ 4 := List.length_take_le 4 receiveBuffer
  calc messageSize receiveBuffer < 256 ^ (receiveBuffer.take 4).length := bound
    _ ≤ 256 ^ 4 := Nat.pow_le_pow_right (by decide) length
    _ = 2 ^ 32 := by decide

theorem messageSize_append {receiveBuffer : List UInt8} (enough : 4 ≤ receiveBuffer.length)
    (rest : List UInt8) : messageSize (receiveBuffer ++ rest) = messageSize receiveBuffer := by
  rw [messageSize, messageSize, List.take_append_of_le_length enough]

theorem messageSize_frame (body : Body) (rest : List UInt8) :
    messageSize (frame body ++ rest) = body.val.length := by
  have fits : body.val.length < 256 ^ 4 := by
    have small := body.property
    omega
  rw [messageSize_append (by simp), messageSize, frame, List.take_left' (bigEndian_length 4 _),
    ofBigEndian_of_lt fits]

theorem unsigned_frame_length (body : Body) :
    unsigned ((body.val.length : Int) + 4) = 4 + body.val.length := by
  have small := body.property
  have value := unsigned_of_lt (show 4 + body.val.length < 2 ^ 32 by omega)
  push_cast at value
  rw [add_comm]
  exact value

theorem nextMessage_frame (body : Body) {rest : List UInt8}
    (some : 1 ≤ body.val.length + rest.length) :
    nextMessage (frame body ++ rest) = .some (body.val, rest) := by
  have small := body.property
  have positive : signed body.val.length = body.val.length :=
    signed_of_lt (by omega) (by omega)
  have behind : (frame body ++ rest).drop 4 = body.val ++ rest := by
    rw [frame, List.append_assoc, List.drop_left' (bigEndian_length 4 _)]
  rw [nextMessage, if_neg (by simp; omega)]
  simp only [messageSize_frame, unsigned_frame_length, positive, behind, Int.toNat_natCast,
    List.take_left]
  rw [if_neg (by simp), List.drop_left' (frame_length body)]

theorem nextMessage_waits {body : Body} {receiveBuffer more rest : List UInt8}
    (stream : receiveBuffer ++ more = frame body ++ rest)
    (waits : receiveBuffer.length < 4 + body.val.length ∨ receiveBuffer.length < 5) :
    nextMessage receiveBuffer = none := by
  rw [nextMessage]
  split_ifs with short
  · rfl
  · have size : messageSize receiveBuffer = body.val.length := by
      rw [← messageSize_append (show 4 ≤ receiveBuffer.length by omega) more, stream,
        messageSize_frame]
    simp only [size, unsigned_frame_length]
    rw [if_pos (by omega)]

def Incomplete (tail : List UInt8) : Prop :=
  tail.length < 4 ∨ tail.length < 4 + messageSize tail

/-- With its own four bytes the announced size leaves `uint32_t`. -/
def Wraps (tail : List UInt8) : Prop := 2 ^ 32 ≤ messageSize tail + 4

instance (tail : List UInt8) : Decidable (Incomplete tail) := inferInstanceAs (Decidable (_ ∨ _))

instance (tail : List UInt8) : Decidable (Wraps tail) := inferInstanceAs (Decidable (_ ≤ _))

theorem nextMessage_incomplete {receiveBuffer more tail : List UInt8}
    (stream : receiveBuffer ++ more = tail) (incomplete : Incomplete tail) :
    nextMessage receiveBuffer = none ↔ ¬ (Wraps tail ∧ 5 ≤ receiveBuffer.length) := by
  rw [nextMessage]
  split_ifs with short
  · exact iff_of_true rfl (by omega)
  · have size : messageSize receiveBuffer = messageSize tail := by
      rw [← stream, messageSize_append (by omega)]
    have bound := messageSize_lt tail
    have length : receiveBuffer.length ≤ tail.length := by
      rw [← stream, List.length_append]
      omega
    have missing : tail.length < 4 + messageSize tail := by
      rcases incomplete with header | body
      · omega
      · exact body
    simp only [size, Wraps]
    by_cases wraps : 2 ^ 32 ≤ messageSize tail + 4
    · have total : unsigned ((messageSize tail : Int) + 4) = messageSize tail + 4 - 2 ^ 32 := by
        unfold unsigned
        omega
      rw [total, if_neg (by omega)]
      exact iff_of_false nofun (by omega)
    · have total : unsigned ((messageSize tail : Int) + 4) = messageSize tail + 4 := by
        unfold unsigned
        omega
      rw [total, if_pos (by omega)]
      exact iff_of_true rfl (by omega)

end Proto

end HyperionNg
