import HyperionNg.Library.Bytes

/-! The framing of RFC 6455: two header bytes, the length in one of three
forms, the masking key if there is one, and the payload. -/

namespace HyperionNg.Library.WebSocket

open Bytes

abbrev Key := Fin 4 → UInt8

def mask (key : Key) (payload : List UInt8) : List UInt8 :=
  payload.mapIdx fun i b => b ^^^ key ⟨i % 4, Nat.mod_lt i (by decide)⟩

@[simp] theorem mask_length (key : Key) (payload : List UInt8) :
    (mask key payload).length = payload.length := by simp [mask]

@[simp] theorem mask_mask (key : Key) (payload : List UInt8) :
    mask key (mask key payload) = payload := by
  apply List.ext_getElem
  · simp
  · intro i hi hi'
    simp only [mask, List.getElem_mapIdx, UInt8.xor_assoc, UInt8.xor_self, UInt8.xor_zero]

structure FinalFrame where
  opcode : Fin 16
  key : Option Key
  payload : List UInt8
  fits : payload.length < 2 ^ 63

def encodeLength (masked : Bool) (length : Nat) : List UInt8 :=
  if length < 126 then [UInt8.ofNat (128 * masked.toNat + length)]
  else if length < 2 ^ 16 then UInt8.ofNat (128 * masked.toNat + 126) :: bigEndian 2 length
  else UInt8.ofNat (128 * masked.toNat + 127) :: bigEndian 8 length

def keyBytes (key : Key) : List UInt8 := [key 0, key 1, key 2, key 3]

def keyOf (bytes : List UInt8) : Key := fun i => bytes.getD i 0

@[simp] theorem keyOf_keyBytes (key : Key) : keyOf (keyBytes key) = key := by
  funext i
  fin_cases i <;> rfl

def header (frame : FinalFrame) : List UInt8 :=
  UInt8.ofNat (128 + frame.opcode) ::
    (encodeLength frame.key.isSome frame.payload.length ++ frame.key.elim [] keyBytes)

def body (frame : FinalFrame) : List UInt8 := frame.key.elim frame.payload (mask · frame.payload)

def encode (frame : FinalFrame) : List UInt8 := header frame ++ body frame

@[simp] theorem body_length (frame : FinalFrame) : (body frame).length = frame.payload.length := by
  unfold body
  cases frame.key with
  | none => rfl
  | some key => exact mask_length key frame.payload

def decodeLength (code : Nat) (bytes : List UInt8) : Option (Nat × List UInt8) :=
  if code = 126 then number? 2 bytes
  else if code = 127 then number? 8 bytes
  else some (code, bytes)

def decodeKey (masked : Bool) (bytes : List UInt8) : Option (Option Key × List UInt8) :=
  if masked then (split? 4 bytes).map fun (key, rest) => (some (keyOf key), rest)
  else some (none, bytes)

/-- A frame as it is received; `payload` is unmasked. -/
structure Received where
  fin : Bool
  opcode : Nat
  payload : List UInt8
deriving DecidableEq

/-- The first frame of a stream and the bytes behind it, once it is complete. -/
def decode : List UInt8 → Option (Received × List UInt8)
  | first :: second :: bytes => do
    let (length, bytes) ← decodeLength (second.toNat % 128) bytes
    let (key, bytes) ← decodeKey (128 ≤ second.toNat) bytes
    let (payload, bytes) ← split? length bytes
    pure (⟨128 ≤ first.toNat, first.toNat % 16, key.elim payload (mask · payload)⟩, bytes)
  | _ => none

theorem decodeLength_encodeLength (masked : Bool) {length : Nat} (fits : length < 2 ^ 64)
    (rest : List UInt8) : ∃ second bytes,
      encodeLength masked length ++ rest = second :: bytes ∧
      decide (128 ≤ second.toNat) = masked ∧
      decodeLength (second.toNat % 128) bytes = some (length, rest) := by
  have flag : ∀ code, code < 128 →
      decide (128 ≤ (UInt8.ofNat (128 * masked.toNat + code)).toNat) = masked ∧
        (UInt8.ofNat (128 * masked.toNat + code)).toNat % 128 = code := by
    intro code small
    cases masked with
    | false =>
      simp
      omega
    | true =>
      simp
      omega
  unfold encodeLength
  split_ifs with short medium
  · obtain ⟨hmasked, hcode⟩ := flag length (by omega)
    refine ⟨_, rest, rfl, hmasked, ?_⟩
    rw [hcode, decodeLength, if_neg (by omega), if_neg (by omega)]
  · obtain ⟨hmasked, hcode⟩ := flag 126 (by decide)
    refine ⟨_, bigEndian 2 length ++ rest, rfl, hmasked, ?_⟩
    rw [hcode, decodeLength, if_pos rfl, number?_bigEndian (by omega)]
  · obtain ⟨hmasked, hcode⟩ := flag 127 (by decide)
    refine ⟨_, bigEndian 8 length ++ rest, rfl, hmasked, ?_⟩
    rw [hcode, decodeLength, if_neg (by decide), if_pos rfl, number?_bigEndian (by omega)]

theorem decodeKey_keyBytes (key : Option Key) (rest : List UInt8) :
    decodeKey key.isSome (key.elim [] keyBytes ++ rest) = some (key, rest) := by
  cases key with
  | none => rfl
  | some key =>
    simp only [decodeKey, Option.isSome_some, if_true, Option.elim_some]
    rw [split?_append (show (keyBytes key).length = 4 from rfl), Option.map_some, keyOf_keyBytes]

theorem decode_unmasked {first second : UInt8} {bytes rest : List UInt8} {length : Nat}
    (unmasked : second.toNat < 128)
    (decodedLength : decodeLength (second.toNat % 128) bytes = some (length, rest)) :
    decode (first :: second :: bytes) =
      (split? length rest).map
        (Prod.map (Received.mk (128 ≤ first.toNat) (first.toNat % 16)) id) := by
  have noKey : decodeKey (128 ≤ second.toNat) rest = some (none, rest) := by
    rw [decide_eq_false (by omega)]
    rfl
  simp only [decode, decodedLength, Option.bind_eq_bind, Option.bind_some, noKey,
    Option.elim_none, Option.pure_def]
  cases split? length rest with
  | none => rfl
  | some split => rfl

theorem decode_header (frame : FinalFrame) (rest : List UInt8) : ∃ first second bytes behind,
    header frame ++ rest = first :: second :: bytes ∧
    128 ≤ first.toNat ∧ first.toNat % 16 = frame.opcode ∧
    decodeLength (second.toNat % 128) bytes = some (frame.payload.length, behind) ∧
    decodeKey (128 ≤ second.toNat) behind = some (frame.key, rest) := by
  have small := frame.opcode.isLt
  have fits := frame.fits
  obtain ⟨second, bytes, split, masked, length⟩ :=
    decodeLength_encodeLength frame.key.isSome (show frame.payload.length < 2 ^ 64 by omega)
      (frame.key.elim [] keyBytes ++ rest)
  refine ⟨UInt8.ofNat (128 + frame.opcode), second, bytes, _, ?_, ?_, ?_, length, ?_⟩
  · rw [← split]
    simp only [header, List.cons_append, List.append_assoc]
  · simp
    omega
  · simp
    omega
  · rw [masked, decodeKey_keyBytes]

theorem decode_encode (frame : FinalFrame) (rest : List UInt8) :
    decode (encode frame ++ rest) = some (⟨true, frame.opcode, frame.payload⟩, rest) := by
  obtain ⟨first, second, bytes, behind, whole, fin, opcode, length, key⟩ :=
    decode_header frame (body frame ++ rest)
  have unmasked : frame.key.elim (body frame) (mask · (body frame)) = frame.payload := by
    unfold body
    cases frame.key with
    | none => rfl
    | some key => exact mask_mask key frame.payload
  rw [encode, List.append_assoc, whole]
  simp only [decode, length, key, Option.bind_eq_bind, Option.bind_some,
    split?_append (body_length frame), unmasked, fin, opcode, decide_true, Option.pure_def]

end HyperionNg.Library.WebSocket
