import HyperionNg.WebSocketMessages

/-! Which bytes the decoder of WebSocket frames touches. The final bit is taken
to say that the frame is there: lengths and keys are read without looking at
the size of the buffer, and the unmasking loop runs over the announced length. -/

namespace HyperionNg.JsonClientConnection

open Library Library.Execution Bytes QByteArray

section frame

variable (unmask : List UInt8 → List UInt8 → Nat → Except SocketFault (List UInt8))

/-- `handleText` with its unmasking loop as a parameter. -/
def handleTextWith (c : JsonClientConnection) (index payloadLength : Nat)
    (maskKey : Option (List UInt8)) : Except SocketFault JsonClientConnection := do
  let result := mid c.receiveBuffer index (signed payloadLength)
  let c := { c with receiveBuffer := [] }
  let result ← maskKey.elim (.ok result) (unmask result · payloadLength)
  pure { c with handled := c.handled ++ [cString result] }

def handleFrameWith (c : JsonClientConnection) : Except SocketFault JsonClientConnection := do
  let first ← byteAt c.receiveBuffer 0
  if first &&& bhb0Fin = bhb0Fin then
    let opCode := first &&& bhb0Opcode
    let second ← byteAt c.receiveBuffer 1
    let isMasked := decide (second &&& bhb0Fin = bhb0Fin)
    let (payloadLength, index) ← readPayloadLength c.receiveBuffer (second &&& bhb1Payload).toNat
    let (maskKey, index) ← readMaskKey c.receiveBuffer isMasked index
    if opCode = Opcode.text then handleTextWith unmask c index payloadLength maskKey
    else if opCode = Opcode.close then pure c.close
    else if opCode = Opcode.ping then pure (c.write [Opcode.pong, 0])
    else pure c
  else pure c.close

end frame

private theorem handleWebSocketFrame_eq (c : JsonClientConnection) :
    c.handleWebSocketFrame = handleFrameWith unmask c := rfl

/-- The unmasking loop with a look-up of every byte that it changes. -/
def unmaskInside (result maskKey : List UInt8) (payloadLength : Nat) :
    Except SocketFault (List UInt8) :=
  (List.range payloadLength).mapM fun i =>
    (byteAt result i).map (· ^^^ maskKey.getD (i % 4) 0)

private theorem byteAt_of_lt {bytes : List UInt8} {i : Nat} (inside : i < bytes.length) :
    byteAt bytes i = .ok (bytes.getD i 0) := by
  simp [byteAt, List.getElem?_eq_getElem inside]

theorem unmaskInside_eq {result : List UInt8} (maskKey : List UInt8) {payloadLength : Nat}
    (inside : payloadLength ≤ result.length) (fits : payloadLength < 2 ^ 31) :
    unmaskInside result maskKey payloadLength = unmask result maskKey payloadLength := by
  have steps : ∀ l : List Nat, (∀ i ∈ l, i < result.length) →
      l.mapM (fun i => (byteAt result i).map (· ^^^ maskKey.getD (i % 4) 0)) =
        .ok (l.map fun i => result.getD i 0 ^^^ maskKey.getD (i % 4) 0) := by
    intro l within
    induction l with
    | nil => rfl
    | cons i rest ih =>
      have here := byteAt_of_lt (within i List.mem_cons_self)
      have later := ih fun j mem => within j (List.mem_cons_of_mem _ mem)
      rw [List.mapM_cons, here, later]
      rfl
  rw [unmask, if_neg (by omega), unmaskInside, steps]
  intro i mem
  exact (List.mem_range.mp mem).trans_le inside

theorem le_of_unmaskInside {result maskKey text : List UInt8} {payloadLength : Nat}
    (ok : unmaskInside result maskKey payloadLength = .ok text) :
    payloadLength ≤ result.length := by
  have steps : ∀ (l : List Nat) (text : List UInt8),
      l.mapM (fun i => (byteAt result i).map (· ^^^ maskKey.getD (i % 4) 0)) = .ok text →
        ∀ i ∈ l, i < result.length := by
    intro l
    induction l with
    | nil => exact fun _ _ => nofun
    | cons i rest ih =>
      intro text ok
      rw [List.mapM_cons] at ok
      obtain ⟨byte, here, ok⟩ := bind_eq_ok.mp ok
      obtain ⟨bytes, later, -⟩ := bind_eq_ok.mp ok
      refine List.forall_mem_cons.mpr ⟨?_, ih bytes later⟩
      by_contra beyond
      rw [byteAt, List.getElem?_eq_none (not_lt.mp beyond)] at here
      exact nomatch here
  by_contra beyond
  have last := steps _ text ok result.length (List.mem_range.mpr (not_le.mp beyond))
  exact lt_irrefl _ last

def lengthEnd (code : Nat) : Nat :=
  if code = payloadSizeCode16bit then 4 else if code = payloadSizeCode64bit then 10 else 2

def headerEnd (second : UInt8) : Nat :=
  lengthEnd (second &&& bhb1Payload).toNat + if second &&& bhb0Fin = bhb0Fin then 4 else 0

def announcedLength (receiveBuffer : List UInt8) (code : Nat) : Nat :=
  if code = payloadSizeCode16bit then ofBigEndian ((receiveBuffer.drop 2).take 2)
  else if code = payloadSizeCode64bit then ofBigEndian ((receiveBuffer.drop 2).take 8)
  else code

theorem readPayloadLength_eq {buffer : List UInt8} {code : Nat}
    (received : lengthEnd code ≤ buffer.length) :
    readPayloadLength buffer code = .ok (announcedLength buffer code, lengthEnd code) := by
  unfold lengthEnd at received
  unfold readPayloadLength announcedLength lengthEnd
  split_ifs at received ⊢
  · rw [bytesAt, if_pos received]
    rfl
  · rw [bytesAt, if_pos received]
    rfl
  · rfl

theorem readPayloadLength_short {buffer : List UInt8} {code : Nat} (two : 2 ≤ buffer.length)
    (short : buffer.length < lengthEnd code) :
    readPayloadLength buffer code = .error .outsideBuffer := by
  unfold lengthEnd at short
  unfold readPayloadLength
  split_ifs at short ⊢
  · rw [bytesAt, if_neg (by omega)]
    rfl
  · rw [bytesAt, if_neg (by omega)]
    rfl
  · omega

theorem readMaskKey_eq {buffer : List UInt8} {masked : Bool} {index : Nat}
    (received : index + (if masked then 4 else 0) ≤ buffer.length) :
    readMaskKey buffer masked index =
      .ok (if masked then some ((buffer.drop index).take 4) else none,
        index + if masked then 4 else 0) := by
  cases masked with
  | false => rfl
  | true =>
    rw [if_pos rfl] at received
    rw [readMaskKey, if_pos rfl, bytesAt, if_pos received]
    rfl

theorem readMaskKey_short {buffer : List UInt8} {masked : Bool} {index : Nat}
    (received : index ≤ buffer.length)
    (short : buffer.length < index + (if masked then 4 else 0)) :
    readMaskKey buffer masked index = .error .outsideBuffer := by
  cases masked with
  | false =>
    rw [if_neg (by decide)] at short
    omega
  | true =>
    rw [if_pos rfl] at short
    rw [readMaskKey, if_pos rfl, bytesAt, if_neg (by omega)]
    rfl

def receivedKey (receiveBuffer : List UInt8) (second : UInt8) : Option (List UInt8) :=
  if second &&& bhb0Fin = bhb0Fin then
    some ((receiveBuffer.drop (lengthEnd (second &&& bhb1Payload).toNat)).take 4)
  else none

section frame

variable (unmask : List UInt8 → List UInt8 → Nat → Except SocketFault (List UInt8))
  {c : JsonClientConnection} {first second : UInt8} {bytes : List UInt8}

theorem handleFrameWith_received (buffer : c.receiveBuffer = first :: second :: bytes)
    (final : first &&& bhb0Fin = bhb0Fin) (received : headerEnd second ≤ c.receiveBuffer.length) :
    handleFrameWith unmask c =
      if first &&& bhb0Opcode = Opcode.text then
        handleTextWith unmask c (headerEnd second)
          (announcedLength c.receiveBuffer (second &&& bhb1Payload).toNat)
          (receivedKey c.receiveBuffer second)
      else if first &&& bhb0Opcode = Opcode.close then .ok c.close
      else if first &&& bhb0Opcode = Opcode.ping then .ok (c.write [Opcode.pong, 0])
      else .ok c := by
  have start : byteAt c.receiveBuffer 0 = .ok first := by rw [buffer]; rfl
  have next : byteAt c.receiveBuffer 1 = .ok second := by rw [buffer]; rfl
  have length : readPayloadLength c.receiveBuffer (second &&& bhb1Payload).toNat = _ :=
    readPayloadLength_eq ((Nat.le_add_right _ _).trans received)
  have key : readMaskKey c.receiveBuffer (decide (second &&& bhb0Fin = bhb0Fin))
      (lengthEnd (second &&& bhb1Payload).toNat) = _ :=
    readMaskKey_eq (by simpa [headerEnd] using received)
  simp only [handleFrameWith, start, final, next, length, key, bind, Except.bind, if_true,
    decide_eq_true_eq]
  rfl

theorem handleFrameWith_short (buffer : c.receiveBuffer = first :: second :: bytes)
    (final : first &&& bhb0Fin = bhb0Fin) (short : c.receiveBuffer.length < headerEnd second) :
    handleFrameWith unmask c = .error .outsideBuffer := by
  have start : byteAt c.receiveBuffer 0 = .ok first := by rw [buffer]; rfl
  have next : byteAt c.receiveBuffer 1 = .ok second := by rw [buffer]; rfl
  have two : 2 ≤ c.receiveBuffer.length := by simp [buffer]
  by_cases received : lengthEnd (second &&& bhb1Payload).toNat ≤ c.receiveBuffer.length
  · have length := readPayloadLength_eq received
    have key : readMaskKey c.receiveBuffer (decide (second &&& bhb0Fin = bhb0Fin))
        (lengthEnd (second &&& bhb1Payload).toNat) = _ :=
      readMaskKey_short received (by simpa [headerEnd] using short)
    simp only [handleFrameWith, start, final, next, length, key, bind, Except.bind, if_true]
  · have length := readPayloadLength_short two (not_le.mp received)
    simp only [handleFrameWith, start, final, next, length, bind, Except.bind, if_true]

end frame

theorem mid_length_le (bytes : List UInt8) (pos : Nat) (len : Int) :
    (mid bytes pos len).length ≤ bytes.length - pos := by
  unfold mid
  split_ifs
  · rw [List.length_drop]
  · rw [List.length_take, List.length_drop]
    omega

theorem handleTextWith_inside_iff (c : JsonClientConnection) {index length : Nat}
    (maskKey : Option (List UInt8)) :
    (∃ t, handleTextWith unmaskInside c index length maskKey = .ok t ∧
        handleTextWith unmask c index length maskKey = .ok t) ↔
      (maskKey.isSome = true → length ≤ c.receiveBuffer.length - index ∧ length < 2 ^ 31) := by
  cases maskKey with
  | none => exact iff_of_true ⟨_, rfl, rfl⟩ fun masked => absurd masked Bool.false_ne_true
  | some key =>
    have whole := mid_length_le c.receiveBuffer index (signed length)
    simp only [Option.isSome_some, true_implies]
    constructor
    · rintro ⟨t, checked, ok⟩
      obtain ⟨text, inside, -⟩ := bind_eq_ok.mp checked
      obtain ⟨text', loops, -⟩ := bind_eq_ok.mp ok
      refine ⟨(le_of_unmaskInside inside).trans whole, ?_⟩
      by_contra large
      change unmask (mid c.receiveBuffer index (signed length)) key length = .ok text' at loops
      rw [unmask, if_pos (not_lt.mp large)] at loops
      cases loops
    · rintro ⟨received, fits⟩
      have same : (mid c.receiveBuffer index (signed length)).length = length := by
        have value := signed_of_lt (show -2 ^ 31 ≤ (length : Int) by omega) (by omega)
        rw [value, mid, if_neg (by omega), Int.toNat_natCast, List.length_take, List.length_drop]
        omega
      have loops : unmaskInside (mid c.receiveBuffer index (signed length)) key length = _ :=
        unmaskInside_eq key same.ge fits
      have ends : unmask (mid c.receiveBuffer index (signed length)) key length = .ok _ :=
        if_neg (by omega)
      exact ⟨_, bind_eq_ok.mpr ⟨_, loops.trans ends, rfl⟩, bind_eq_ok.mpr ⟨_, ends, rfl⟩⟩

/-- The frame at the start of the buffer has been received as far as the
decoder reads: it is not final, or its header is there and, if it is a masked
text, all of the payload, which is no longer than an array can be. -/
def FrameReceived (buffer : List UInt8) : Prop :=
  ∀ first ∈ buffer.head?, first &&& bhb0Fin = bhb0Fin →
    ∃ second ∈ buffer[1]?, headerEnd second ≤ buffer.length ∧
      (first &&& bhb0Opcode = Opcode.text → second &&& bhb0Fin = bhb0Fin →
        announcedLength buffer (second &&& bhb1Payload).toNat ≤ buffer.length - headerEnd second ∧
        announcedLength buffer (second &&& bhb1Payload).toNat < 2 ^ 31)

/-- The decoder returns, and looks up and unmasks received bytes alone, exactly
on the frames that have been received as far as it reads. -/
theorem handleWebSocketFrame_inside_iff {c : JsonClientConnection} (some : c.receiveBuffer ≠ []) :
    (∃ t, handleFrameWith unmaskInside c = .ok t ∧ c.handleWebSocketFrame = .ok t) ↔
      FrameReceived c.receiveBuffer := by
  rw [handleWebSocketFrame_eq]
  obtain ⟨first, bytes, buffer⟩ := List.exists_cons_of_ne_nil some
  have start : byteAt c.receiveBuffer 0 = .ok first := by rw [buffer]; rfl
  by_cases final : first &&& bhb0Fin = bhb0Fin
  · cases bytes with
    | nil =>
      have next : byteAt c.receiveBuffer 1 = .error .outsideBuffer := by rw [buffer]; rfl
      refine iff_of_false ?_ fun received => ?_
      · rintro ⟨t, ok, -⟩
        simp only [handleFrameWith, start, final, next, bind, Except.bind, if_true] at ok
        exact nomatch ok
      · obtain ⟨second, there, -⟩ := received first (by rw [buffer]; rfl) final
        rw [buffer] at there
        exact nomatch there
    | cons second bytes =>
      have there : c.receiveBuffer[1]? = .some second := by rw [buffer]; rfl
      by_cases header : headerEnd second ≤ c.receiveBuffer.length
      · rw [handleFrameWith_received _ buffer final header,
          handleFrameWith_received _ buffer final header]
        have key : (receivedKey c.receiveBuffer second).isSome = true ↔
            second &&& bhb0Fin = bhb0Fin := by
          unfold receivedKey
          split_ifs with masked <;> simp [masked]
        have same : FrameReceived c.receiveBuffer ↔ (first &&& bhb0Opcode = Opcode.text →
            second &&& bhb0Fin = bhb0Fin →
            announcedLength c.receiveBuffer (second &&& bhb1Payload).toNat ≤
                c.receiveBuffer.length - headerEnd second ∧
              announcedLength c.receiveBuffer (second &&& bhb1Payload).toNat < 2 ^ 31) := by
          constructor
          · intro received
            obtain ⟨second', mem, -, text⟩ := received first (by rw [buffer]; rfl) final
            obtain rfl : second = second' := Option.some.inj (there.symm.trans mem)
            exact text
          · rintro text _ head -
            rw [buffer] at head
            obtain rfl := Option.some.inj head
            exact ⟨second, there, header, text⟩
        rw [same]
        by_cases text : first &&& bhb0Opcode = Opcode.text
        · rw [if_pos text, if_pos text, handleTextWith_inside_iff, key]
          exact ⟨fun h _ => h, fun h => h text⟩
        · rw [if_neg text, if_neg text]
          refine iff_of_true ?_ fun h => absurd h text
          split_ifs
          · exact ⟨_, rfl, rfl⟩
          · exact ⟨_, rfl, rfl⟩
          · exact ⟨_, rfl, rfl⟩
      · have stops := handleFrameWith_short unmaskInside buffer final (not_le.mp header)
        refine iff_of_false ?_ fun received => ?_
        · rintro ⟨t, ok, -⟩
          exact nomatch stops.symm.trans ok
        · obtain ⟨second', mem, fits, -⟩ := received first (by rw [buffer]; rfl) final
          obtain rfl : second = second' := Option.some.inj (there.symm.trans mem)
          exact header fits
  · refine iff_of_true ⟨c.close, ?_, ?_⟩ ?_
    · simp only [handleFrameWith, start, final, bind, Except.bind, if_false]
      rfl
    · simp only [handleFrameWith, start, final, bind, Except.bind, if_false]
      rfl
    · rintro _ head isFinal
      rw [buffer] at head
      exact absurd (Option.some.inj head ▸ isFinal) final

theorem handleWebSocketFrame_inside_masked :
    (∃ t, handleFrameWith unmaskInside { receiveBuffer := [0x81, 0x82, 1, 2, 3, 4, 122, 127] } =
        .ok t ∧ handleWebSocketFrame { receiveBuffer := [0x81, 0x82, 1, 2, 3, 4, 122, 127] } =
        .ok t) ↔ FrameReceived [0x81, 0x82, 1, 2, 3, 4, 122, 127] :=
  handleWebSocketFrame_inside_iff
    (c := { receiveBuffer := [0x81, 0x82, 1, 2, 3, 4, 122, 127] }) (by decide)

/-- A final text frame of one byte has no second one to look at; a masked text
of five bytes with one received is unmasked beyond it; and a masked text of
2 ^ 32 bytes keeps a counter of 32 bits busy until no memory is left. -/
theorem not_inside_truncated :
    handleWebSocketFrame { receiveBuffer := [0x81] } = .error .outsideBuffer ∧
    handleFrameWith unmaskInside { receiveBuffer := [0x81, 0x85, 1, 2, 3, 4, 122] } =
      .error .outsideBuffer ∧
    handleWebSocketFrame { receiveBuffer :=
      [0x81, 0xFF, 0, 0, 0, 1, 0, 0, 0, 0, 1, 2, 3, 4] } = .error .exhausted := ⟨rfl, rfl, rfl⟩

end HyperionNg.JsonClientConnection
