import HyperionNg.ImageCommands
import HyperionNg.JsonClientConnection
import HyperionNg.Library.Execution
import Mathlib.Data.List.TakeWhile

/-! WebSocket frames against RFC 6455. On a complete frame the connection
decodes what the RFC decodes, but it takes every read for one whole frame:
the buffer is cleared behind a text, and kept behind anything else. Replies
are framed with at most two length bytes. -/

namespace HyperionNg.JsonClientConnection

open Library Library.Execution Bytes WebSocket QByteArray

theorem high_bit_iff (b : UInt8) : b &&& bhb0Fin = bhb0Fin ↔ 128 ≤ b.toNat := by
  have all : ∀ n : Fin 256, UInt8.ofNat n &&& bhb0Fin = bhb0Fin ↔ 128 ≤ n.val := by
    decide +kernel
  simpa using all ⟨b.toNat, b.toNat_lt⟩

private theorem payload_bits (b : UInt8) : (b &&& bhb1Payload).toNat = b.toNat % 128 := by
  rw [UInt8.toNat_and]
  exact Nat.and_two_pow_sub_one_eq_mod b.toNat 7

private theorem opcode_bits (b : UInt8) : (b &&& bhb0Opcode).toNat = b.toNat % 16 := by
  rw [UInt8.toNat_and]
  exact Nat.and_two_pow_sub_one_eq_mod b.toNat 4

theorem bytesAt_of_split {buffer bytes front rest : List UInt8} {index n : Nat}
    (behind : bytes = buffer.drop index) (inside : index ≤ buffer.length)
    (split : split? n bytes = some (front, rest)) :
    bytesAt buffer index n = .ok front ∧ rest = buffer.drop (index + n) ∧
      index + n ≤ buffer.length := by
  unfold split? at split
  split_ifs at split with enough
  obtain ⟨rfl, rfl⟩ := Prod.mk.inj (Option.some.inj split)
  rw [behind, List.length_drop] at enough
  have within : index + n ≤ buffer.length := by omega
  refine ⟨?_, ?_, within⟩
  · rw [bytesAt, if_pos within, behind]
  · rw [behind, List.drop_drop]

theorem readPayloadLength_of_decode {buffer bytes rest : List UInt8} {code length : Nat}
    (behind : bytes = buffer.drop 2) (inside : 2 ≤ buffer.length)
    (decoded : decodeLength code bytes = some (length, rest)) :
    ∃ index, readPayloadLength buffer code = .ok (length, index) ∧ rest = buffer.drop index ∧
      index ≤ buffer.length := by
  have number : ∀ n, number? n bytes = some (length, rest) →
      ((bytesAt buffer 2 n).map fun bytes => (ofBigEndian bytes, 2 + n)) = .ok (length, 2 + n) ∧
        rest = buffer.drop (2 + n) ∧ 2 + n ≤ buffer.length := by
    intro n read
    obtain ⟨⟨front, rest'⟩, split, same⟩ := Option.map_eq_some_iff.mp read
    obtain ⟨rfl, rfl⟩ := Prod.mk.inj same
    obtain ⟨here, later, within⟩ := bytesAt_of_split behind inside split
    rw [here]
    exact ⟨rfl, later, within⟩
  unfold decodeLength at decoded
  unfold readPayloadLength payloadSizeCode16bit payloadSizeCode64bit
  split_ifs at decoded ⊢ with medium long
  · exact ⟨_, number 2 decoded⟩
  · exact ⟨_, number 8 decoded⟩
  · obtain ⟨rfl, rfl⟩ := Prod.mk.inj (Option.some.inj decoded)
    exact ⟨2, rfl, behind, inside⟩

theorem readMaskKey_of_decode {buffer bytes rest : List UInt8} {masked : Bool} {index : Nat}
    {key : Option Key} (behind : bytes = buffer.drop index) (inside : index ≤ buffer.length)
    (decoded : decodeKey masked bytes = some (key, rest)) :
    ∃ maskKey index', readMaskKey buffer masked index = .ok (maskKey, index') ∧
      key = maskKey.map keyOf ∧ rest = buffer.drop index' ∧
      index' ≤ buffer.length := by
  unfold decodeKey at decoded
  unfold readMaskKey
  split_ifs at decoded ⊢ with isMasked
  · obtain ⟨⟨front, rest'⟩, split, same⟩ := Option.map_eq_some_iff.mp decoded
    obtain ⟨rfl, rfl⟩ := Prod.mk.inj same
    obtain ⟨here, later, within⟩ := bytesAt_of_split behind inside split
    rw [here]
    exact ⟨some front, _, rfl, rfl, later, within⟩
  · obtain ⟨rfl, rfl⟩ := Prod.mk.inj (Option.some.inj decoded)
    exact ⟨none, index, rfl, rfl, behind, inside⟩

theorem unmask_eq_mask {payload : List UInt8} (maskKey : List UInt8)
    (fits : payload.length < 2 ^ 31) :
    unmask payload maskKey payload.length = .ok (mask (keyOf maskKey) payload) := by
  rw [unmask, if_neg (by omega)]
  congr 1
  apply List.ext_getElem
  · simp
  · intro i hi hi'
    have inside : i < payload.length := by simpa using hi'
    simp [mask, keyOf, inside]

theorem handleText_of_split {c : JsonClientConnection} {index length : Nat}
    {maskKey : Option (List UInt8)} {payload rest : List UInt8}
    (split : split? length (c.receiveBuffer.drop index) = some (payload, rest))
    (fits : length < 2 ^ 31) : c.handleText index length maskKey = .ok { c with
      receiveBuffer := []
      handled := c.handled ++ [cString ((maskKey.map keyOf).elim payload
        (mask · payload))] } := by
  unfold split? at split
  split_ifs at split with enough
  obtain ⟨rfl, rfl⟩ := Prod.mk.inj (Option.some.inj split)
  have received : ((c.receiveBuffer.drop index).take length).length = length := by
    rw [List.length_take]
    omega
  have result : mid c.receiveBuffer index (signed length) =
      (c.receiveBuffer.drop index).take length := by
    have value := signed_of_lt (show -2 ^ 31 ≤ (length : Int) by omega) (by omega)
    rw [value, mid, if_neg (by omega), Int.toNat_natCast]
  cases maskKey with
  | none => simp [handleText, result, bind, Except.bind, pure, Except.pure]
  | some key =>
    have unmasked := unmask_eq_mask key (received.symm ▸ fits)
    rw [received] at unmasked
    simp [handleText, result, unmasked, bind, Except.bind, pure, Except.pure]

theorem opcode_iff (b code : UInt8) : b &&& bhb0Opcode = code ↔ b.toNat % 16 = code.toNat := by
  rw [← UInt8.toNat_inj, opcode_bits]

private theorem length_of_split {n : Nat} {bytes front rest : List UInt8}
    (split : split? n bytes = some (front, rest)) : front.length = n := by
  unfold split? at split
  split_ifs at split with enough
  rw [← (Prod.mk.inj (Option.some.inj split)).1, List.length_take]
  omega

theorem handleWebSocketFrame_of_header {c : JsonClientConnection} {first second : UInt8}
    {bytes behind rest : List UInt8} {length : Nat} {key : Option Key}
    (buffer : c.receiveBuffer = first :: second :: bytes)
    (decodedLength : decodeLength (second.toNat % 128) bytes = some (length, behind))
    (decodedKey : decodeKey (128 ≤ second.toNat) behind = some (key, rest)) :
    ∃ index maskKey, rest = c.receiveBuffer.drop index ∧ key = maskKey.map keyOf ∧
      c.handleWebSocketFrame =
        if 128 ≤ first.toNat then
          if first.toNat % 16 = 1 then c.handleText index length maskKey
          else if first.toNat % 16 = 8 then .ok c.close
          else if first.toNat % 16 = 9 then .ok (c.write [Opcode.pong, 0])
          else .ok c
        else .ok c.close := by
  have second_byte : bytes = c.receiveBuffer.drop 2 := by rw [buffer]; rfl
  have inside : 2 ≤ c.receiveBuffer.length := by rw [buffer]; simp
  obtain ⟨index, readLength, behindLength, insideLength⟩ :=
    readPayloadLength_of_decode second_byte inside decodedLength
  obtain ⟨maskKey, index', readKey, sameKey, behindKey, _⟩ :=
    readMaskKey_of_decode behindLength insideLength decodedKey
  have zeroth : byteAt c.receiveBuffer 0 = .ok first := by rw [buffer]; rfl
  have firstByte : byteAt c.receiveBuffer 1 = .ok second := by rw [buffer]; rfl
  have textCode : Opcode.text.toNat = 1 := rfl
  have closeCode : Opcode.close.toNat = 8 := rfl
  have pingCode : Opcode.ping.toNat = 9 := rfl
  refine ⟨index', maskKey, behindKey, sameKey, ?_⟩
  simp only [handleWebSocketFrame, zeroth, firstByte, readLength, readKey, high_bit_iff,
    payload_bits, opcode_iff, textCode, closeCode, pingCode, bind, Except.bind, pure,
    Except.pure]

def afterFrame (c : JsonClientConnection) (frame : Received) : JsonClientConnection :=
  if frame.fin then
    if frame.opcode = 1 then
      { c with receiveBuffer := [], handled := c.handled ++ [cString frame.payload] }
    else if frame.opcode = 8 then c.close
    else if frame.opcode = 9 then c.write [Opcode.pong, 0]
    else c
  else c.close

theorem handleWebSocketFrame_of_decode {c : JsonClientConnection} {frame : Received}
    {rest : List UInt8} (decoded : decode c.receiveBuffer = some (frame, rest))
    (fits : frame.payload.length < 2 ^ 31) :
    c.handleWebSocketFrame = .ok (c.afterFrame frame) := by
  match buffer : c.receiveBuffer with
  | [] => simp [buffer, decode] at decoded
  | [_] => simp [buffer, decode] at decoded
  | first :: second :: bytes =>
    rw [buffer] at decoded
    simp only [decode, Option.bind_eq_bind, Option.bind_eq_some_iff, Option.pure_def,
      Option.some.injEq, Prod.mk.injEq, Prod.exists] at decoded
    obtain ⟨length, b1, hlength, key, b2, hkey, payload, b3, hpayload, rfl, rfl⟩ := decoded
    obtain ⟨index, maskKey, behind, rfl, step⟩ :=
      handleWebSocketFrame_of_header buffer hlength hkey
    have short : length < 2 ^ 31 := by
      have received := length_of_split hpayload
      cases maskKey with
      | none => exact received ▸ fits
      | some key =>
        rw [← received]
        simpa using fits
    rw [step, handleText_of_split (behind ▸ hpayload) short]
    simp only [afterFrame, decide_eq_true_eq]
    split_ifs <;> rfl

structure Open (c : JsonClientConnection) : Prop where
  opened : c.closed = false
  mode : c.webSocketHandshakeDone = true

def IsControl (frame : FinalFrame) : Prop := frame.opcode = 9 ∨ frame.opcode = 10

instance (frame : FinalFrame) : Decidable (IsControl frame) := inferInstanceAs (Decidable (_ ∨ _))

def texts (frames : List FinalFrame) : List (List UInt8) :=
  (frames.filter fun frame => frame.opcode = 1).map FinalFrame.payload

/-- The frames that are complete after `n` bytes. -/
def arrived : List FinalFrame → Nat → List FinalFrame
  | [], _ => []
  | frame :: rest, n =>
    if (encode frame).length ≤ n then frame :: arrived rest (n - (encode frame).length) else []

/-- Whatever number of the reads has arrived, the texts of the complete frames
are handed over; and after all of them the texts of all frames. -/
def DeliversTexts (qt : Qt) (c : JsonClientConnection) (frames : List FinalFrame)
    (reads : List (List UInt8)) : Prop :=
  (∀ k ≤ reads.length, ∃ d, Reaches (readData qt) c (reads.take k) d ∧
    d.handled = c.handled ++ texts (arrived frames (reads.take k).flatten.length)) ∧
  ∃ d, Reaches (readData qt) c reads d ∧ d.handled = c.handled ++ texts frames

/-- Every text comes in a read of its own, with no more behind it than complete
control frames; any other control frames come last, the first header of them
in one read. -/
inductive Separate : List FinalFrame → List (List UInt8) → Prop
  | nil : Separate [] []
  | text {text : FinalFrame} {controls frames : List FinalFrame} {reads : List (List UInt8)}
      (opcode : text.opcode = 1) (fits : text.payload.length < 2 ^ 31) (noZero : 0 ∉ text.payload)
      (control : ∀ frame ∈ controls, IsControl frame) (rest : Separate frames reads) :
      Separate (text :: (controls ++ frames)) ((text :: controls).flatMap encode :: reads)
  | controls {first : FinalFrame} {frames : List FinalFrame} {bytes : List UInt8}
      {reads : List (List UInt8)}
      (control : ∀ frame ∈ first :: frames, IsControl frame) (whole : header first <+: bytes)
      (sent : (bytes :: reads).flatten = (first :: frames).flatMap encode) :
      Separate (first :: frames) (bytes :: reads)

variable {c : JsonClientConnection}

private theorem encode_length_pos (frame : FinalFrame) : 0 < (encode frame).length := by
  simp [encode, header]

@[simp] theorem arrived_zero (frames : List FinalFrame) : arrived frames 0 = [] := by
  cases frames with
  | nil => rfl
  | cons frame rest =>
    have some := encode_length_pos frame
    rw [arrived, if_neg (by omega)]

theorem arrived_append (first second : List FinalFrame) (n : Nat) :
    arrived (first ++ second) ((first.flatMap encode).length + n) = first ++ arrived second n := by
  induction first with
  | nil => simp
  | cons frame rest ih =>
    have cut : ((frame :: rest).flatMap encode).length + n =
        (encode frame).length + ((rest.flatMap encode).length + n) := by
      simp [Nat.add_assoc]
    rw [cut, List.cons_append, arrived, if_pos (by omega), Nat.add_sub_cancel_left, ih,
      List.cons_append]

private theorem texts_append (first second : List FinalFrame) :
    texts (first ++ second) = texts first ++ texts second := by
  simp [texts]

theorem texts_of_control {frames : List FinalFrame} (control : ∀ frame ∈ frames, IsControl frame) :
    texts frames = [] := by
  rw [texts, List.map_eq_nil_iff, List.filter_eq_nil_iff]
  intro frame mem isText
  rcases control frame mem with opcode | opcode
  · simp [opcode] at isText
  · simp [opcode] at isText

theorem arrived_subset (frames : List FinalFrame) (n : Nat) : arrived frames n ⊆ frames := by
  induction frames generalizing n with
  | nil => simp [arrived]
  | cons frame rest ih =>
    rw [arrived]
    split_ifs
    · exact List.cons_subset_cons frame (ih _)
    · exact List.nil_subset _

private theorem readData_open (qt : Qt) (isOpen : c.Open) (bytes : List UInt8) :
    c.readData qt bytes =
      handleWebSocketFrame { c with receiveBuffer := c.receiveBuffer ++ bytes } := by
  have opened := isOpen.opened
  have mode := isOpen.mode
  simp [readData, opened, mode]

theorem readData_text (qt : Qt) (isOpen : c.Open) (empty : c.receiveBuffer = []) {text : FinalFrame}
    (opcode : text.opcode = 1) (fits : text.payload.length < 2 ^ 31) (noZero : 0 ∉ text.payload)
    (rest : List UInt8) : c.readData qt (encode text ++ rest) = .ok { c with
      receiveBuffer := []
      handled := c.handled ++ [text.payload] } := by
  have decoded : decode (c.receiveBuffer ++ (encode text ++ rest)) =
      some (⟨true, text.opcode, text.payload⟩, rest) := by
    rw [empty]
    exact decode_encode text rest
  have whole : cString text.payload = text.payload := by
    rw [cString, List.takeWhile_eq_self_iff]
    intro b mem
    simpa using ne_of_mem_of_not_mem mem noZero
  rw [readData_open qt isOpen, handleWebSocketFrame_of_decode
    (c := { c with receiveBuffer := c.receiveBuffer ++ (encode text ++ rest) }) decoded fits]
  simp [afterFrame, opcode, whole]

theorem readData_control (qt : Qt) (isOpen : c.Open) {frame : FinalFrame}
    (control : IsControl frame)
    {bytes : List UInt8} (whole : header frame <+: c.receiveBuffer ++ bytes) :
    ∃ d : JsonClientConnection, c.readData qt bytes = .ok d ∧ d.Open ∧
      d.receiveBuffer = c.receiveBuffer ++ bytes ∧ d.handled = c.handled := by
  obtain ⟨rest, split⟩ := whole
  obtain ⟨first, second, behind, b1, bytes', fin, code, length, key⟩ := decode_header frame rest
  obtain ⟨_, _, _, _, step⟩ := handleWebSocketFrame_of_header
    (c := { c with receiveBuffer := c.receiveBuffer ++ bytes })
    (split.symm.trans bytes') length key
  rw [readData_open qt isOpen, step, if_pos fin, code]
  rcases control with opcode | opcode
  · simp only [opcode]
    exact ⟨_, rfl, ⟨isOpen.opened, isOpen.mode⟩, rfl, rfl⟩
  · simp only [opcode]
    exact ⟨_, rfl, ⟨isOpen.opened, isOpen.mode⟩, rfl, rfl⟩

theorem reaches_behind_control (qt : Qt) {frame : FinalFrame} (control : IsControl frame)
    (isOpen : c.Open) (whole : header frame <+: c.receiveBuffer) (reads : List (List UInt8)) :
    ∃ d, Reaches (readData qt) c reads d ∧ d.handled = c.handled := by
  induction reads generalizing c with
  | nil => exact ⟨c, reaches_nil.mpr rfl, rfl⟩
  | cons bytes reads ih =>
    have longer := whole.trans (List.prefix_append c.receiveBuffer bytes)
    obtain ⟨d, step, isOpenNext, buffer, same⟩ := readData_control qt isOpen control longer
    obtain ⟨e, run, handled⟩ := ih isOpenNext (buffer ▸ longer)
    exact ⟨e, reaches_cons.mpr ⟨d, step, run⟩, handled.trans same⟩

theorem Separate.sent {frames : List FinalFrame} {reads : List (List UInt8)}
    (separate : Separate frames reads) : reads.flatten = frames.flatMap encode := by
  induction separate with
  | nil => rfl
  | text _ _ _ _ _ ih => simp [ih]
  | controls _ _ sent => exact sent

theorem deliversTexts_of_separate (qt : Qt) {c : JsonClientConnection} {frames : List FinalFrame}
    {reads : List (List UInt8)} (isOpen : c.Open) (empty : c.receiveBuffer = [])
    (separate : Separate frames reads) : DeliversTexts qt c frames reads := by
  induction separate generalizing c with
  | nil =>
    refine ⟨fun k _ => ⟨c, ?_, ?_⟩, c, reaches_nil.mpr rfl, by simp [texts]⟩
    · simp
    · simp [arrived, texts]
  | @text text controls frames reads opcode fits noZero control rest ih =>
    have step := readData_text qt isOpen empty opcode fits noZero (controls.flatMap encode)
    have first : texts (text :: controls) = [text.payload] := by
      have others := texts_of_control control
      unfold texts at others ⊢
      rw [List.filter_cons_of_pos (by simpa using opcode), List.map_cons, others]
    have all : ∀ frames', texts (text :: (controls ++ frames')) =
        text.payload :: texts frames' := by
      intro frames'
      rw [← List.cons_append, texts_append, first, List.singleton_append]
    obtain ⟨along, d, run, handled⟩ := @ih
      { c with receiveBuffer := [], handled := c.handled ++ [text.payload] }
      ⟨isOpen.opened, isOpen.mode⟩ rfl
    constructor
    · intro k hk
      cases k with
      | zero => exact ⟨c, reaches_nil.mpr rfl, by simp [texts]⟩
      | succ k =>
        obtain ⟨e, run, handled⟩ := along k (by simpa using hk)
        refine ⟨e, reaches_cons.mpr ⟨_, step, run⟩, ?_⟩
        rw [List.take_succ_cons, List.flatten_cons, List.length_append, ← List.cons_append,
          arrived_append, List.cons_append, all, handled, List.append_assoc,
          List.singleton_append]
    · refine ⟨d, reaches_cons.mpr ⟨_, step, run⟩, ?_⟩
      rw [all, handled, List.append_assoc, List.singleton_append]
  | @controls first frames bytes reads control whole sent =>
    have none : ∀ n, texts (arrived (first :: frames) n) = [] := fun n =>
      texts_of_control fun frame mem => control frame (arrived_subset _ n mem)
    have whole' : header first <+: c.receiveBuffer ++ bytes := by
      rw [empty]
      exact whole
    obtain ⟨d, step, isOpenNext, buffer, same⟩ :=
      readData_control qt isOpen (control first (by simp)) whole'
    have later := reaches_behind_control qt (control first (by simp)) isOpenNext
      (buffer ▸ whole')
    constructor
    · intro k hk
      rw [none, List.append_nil]
      cases k with
      | zero => exact ⟨c, reaches_nil.mpr rfl, rfl⟩
      | succ k =>
        obtain ⟨e, run, handled⟩ := later (reads.take k)
        exact ⟨e, reaches_cons.mpr ⟨d, step, run⟩, handled.trans same⟩
    · obtain ⟨e, run, handled⟩ := later reads
      refine ⟨e, reaches_cons.mpr ⟨d, step, run⟩, ?_⟩
      rw [texts_of_control control, List.append_nil]
      exact handled.trans same

/-- Reads of a stream of frames that keep the texts apart deliver them. -/
theorem separate_delivers (qt : Qt) (c : JsonClientConnection) (frames : List FinalFrame)
    (reads : List (List UInt8)) (isOpen : c.Open) (empty : c.receiveBuffer = [])
    (separate : Separate frames reads) :
    reads.flatten = frames.flatMap encode ∧ DeliversTexts qt c frames reads :=
  ⟨separate.sent, deliversTexts_of_separate qt isOpen empty separate⟩

def afterHandshake : JsonClientConnection := { webSocketHandshakeDone := true }

def textFrame : FinalFrame := ⟨1, none, ascii "\x7b\x7d", by decide⟩

def pingFrame : FinalFrame := ⟨9, some fun _ => 1, [], by decide⟩

theorem separate_delivers_ping :
    [encode textFrame ++ encode pingFrame].flatten = [textFrame, pingFrame].flatMap encode ∧
      DeliversTexts .silent afterHandshake [textFrame, pingFrame]
        [encode textFrame ++ encode pingFrame] :=
  separate_delivers .silent afterHandshake [textFrame, pingFrame]
    [encode textFrame ++ encode pingFrame] ⟨rfl, rfl⟩ rfl
    (@Separate.text textFrame [pingFrame] [] [] rfl (by decide) (by decide) (by decide) .nil)

/-- The second half of a frame is taken for a header, and the connection closed. -/
theorem split_text_lost :
    [[0x81, 2, 0x7b], [0x7d]].flatten = [textFrame].flatMap encode ∧
      ¬ ∃ d, Reaches (readData .silent) afterHandshake [[0x81, 2, 0x7b], [0x7d]] d ∧
        d.handled = texts [textFrame] := by
  refine ⟨by decide, ?_⟩
  rintro ⟨d, run, all⟩
  have half : (Except.ok d : Except SocketFault JsonClientConnection).map
      JsonClientConnection.handled = .ok [ascii "\x7b"] := by
    rw [← run]
    rfl
  rw [Except.map, all] at half
  exact absurd (Except.ok.inj half) (by decide)

def announced (serializedReply : List UInt8) : Nat :=
  let size := unsigned serializedReply.length
  if 125 < size then size % 2 ^ 16 else size

theorem decode_frameReply (serializedReply : List UInt8) :
    decode (frameReply serializedReply) =
      (split? (announced serializedReply) serializedReply).map
        (Prod.map (Received.mk true 1) id) := by
  simp only [frameReply, announced]
  generalize unsigned serializedReply.length = size
  split_ifs with long
  · have lengthBytes : [UInt8.ofNat (size / 2 ^ 8 % 2 ^ 8), UInt8.ofNat (size % 2 ^ 8)] =
        bigEndian 2 (size % 2 ^ 16) := by
      have high : size % 2 ^ 16 / 256 = size / 2 ^ 8 % 2 ^ 8 := by omega
      have low : UInt8.ofNat (size % 2 ^ 16) = UInt8.ofNat (size % 2 ^ 8) := by
        rw [← UInt8.toNat_inj, UInt8.toNat_ofNat', UInt8.toNat_ofNat']
        omega
      simp only [bigEndian, high, low, List.nil_append, List.cons_append]
    have length := number?_bigEndian (show size % 2 ^ 16 < 256 ^ 2 by omega) serializedReply
    rw [← lengthBytes] at length
    have unmasked : (0x7E : UInt8).toNat < 128 := by decide
    exact decode_unmasked unmasked length
  · have value : (UInt8.ofNat size).toNat = size := by
      rw [UInt8.toNat_ofNat']
      omega
    have length : decodeLength ((UInt8.ofNat size).toNat % 128) serializedReply =
        some (size, serializedReply) := by
      rw [value, decodeLength, if_neg (by omega), if_neg (by omega), Nat.mod_eq_of_lt (by omega)]
    exact decode_unmasked (by omega) length

theorem announced_eq_iff (serializedReply : List UInt8) :
    announced serializedReply = serializedReply.length ↔ serializedReply.length < 65536 := by
  constructor
  · intro exact
    rw [announced] at exact
    split_ifs at exact
    · omega
    · omega
  · intro short
    have size : unsigned serializedReply.length = serializedReply.length :=
      unsigned_of_lt (by omega)
    rw [announced, size]
    split_ifs
    · omega
    · rfl

theorem frameReply_exact_iff (serializedReply : List UInt8) :
    decode (frameReply serializedReply) = some (⟨true, 1, serializedReply⟩, []) ↔
      serializedReply.length < 65536 := by
  rw [decode_frameReply, ← announced_eq_iff, ← split?_eq_whole]
  constructor
  · intro decoded
    obtain ⟨⟨payload, rest⟩, split, same⟩ := Option.map_eq_some_iff.mp decoded
    obtain ⟨received, rfl⟩ := Prod.mk.inj same
    rw [split, (Received.mk.inj received).2.2]
  · intro split
    rw [split]
    rfl

/-- The bytes `sendMessage` appends for a WebSocket client. -/
def sent (qt : Qt) (c : JsonClientConnection) (message : QJsonObject) : List UInt8 :=
  (c.sendMessage qt message).written.drop c.written.length

theorem sent_eq (qt : Qt) {c : JsonClientConnection} (mode : c.webSocketHandshakeDone = true)
    (message : QJsonObject) :
    sent qt c message = frameReply (qt.toJson message ++ [newline]) := by
  simp [sent, sendMessage, mode, write]

/-- A reply is decoded as it was serialised, and nothing remains, exactly when
it is shorter than 64 KiB. -/
theorem decode_sent_iff (qt : Qt) (c : JsonClientConnection) (message : QJsonObject)
    (mode : c.webSocketHandshakeDone = true) :
    decode (sent qt c message) = some (⟨true, 1, qt.toJson message ++ [newline]⟩, []) ↔
      (qt.toJson message ++ [newline]).length < 65536 := by
  rw [sent_eq qt mode, frameReply_exact_iff]

/-- The compact text of an object whose values are plain strings. -/
def plainText (message : QJsonObject) : List UInt8 :=
  ascii "\x7b" ++ List.intercalate (ascii ",") (message.map fun (name, value) =>
    ascii "\"" ++ ascii name ++ ascii "\":\"" ++ ascii (value.toString "") ++ ascii "\"") ++
    ascii "\x7d"

def plainQt : Qt where
  toJson := plainText
  sha1Base64 _ := []

theorem decode_sent_error :
    decode (sent plainQt afterHandshake [("error", .string "No request")]) =
        some (⟨true, 1, plainText [("error", .string "No request")] ++ [newline]⟩, []) ↔
      (plainText [("error", .string "No request")] ++ [newline]).length < 65536 :=
  decode_sent_iff plainQt afterHandshake [("error", .string "No request")] rfl

/-- A reply of `length + 12` bytes. -/
def longReply (length : Nat) : QJsonObject :=
  [("info", .string (String.ofList (List.replicate length 'a')))]

private theorem longReply_length (length : Nat) :
    (plainText (longReply length) ++ [newline]).length = length + 12 := by
  simp [plainText, longReply, ascii, Json.toString]

/-- Of 65536 bytes none are announced. -/
theorem long_reply_cut : decode (sent plainQt afterHandshake (longReply 65524)) ≠
    some (⟨true, 1, plainText (longReply 65524) ++ [newline]⟩, []) := by
  rw [sent_eq plainQt rfl]
  intro decoded
  have short := (frameReply_exact_iff _).mp decoded
  exact absurd (longReply_length 65524 ▸ short) (by decide)

end HyperionNg.JsonClientConnection
