import HyperionNg.Types
import HyperionNg.Library.Execution
import HyperionNg.Library.Waveform

/-! The waveform the SPI drivers send: two data bits in each byte, four bytes for
each colour channel, the channels of an LED side by side. The drivers share the
inner loop over the bytes of an LED; they differ in the pulses, in what they
leave between the LEDs and in the latch area behind them. An element outside the
buffer is not defined. -/

namespace HyperionNg.SpiWaveform

open Library.Execution Library.Waveform

def pulse? (one nibble : Nat) : Option Nat :=
  if nibble = 0b1000 then some 0 else if nibble = one then some 1 else none

def bitpair? (one : Nat) (byte : UInt8) : Option Nat :=
  (pulse? one (byte.toNat / 16)).bind fun high =>
    (pulse? one (byte.toNat % 16)).map fun low => 2 * high + low

/-- `_ledBuffer[i] = value` -/
def assign (ledBuffer : List UInt8) (i : Nat) (value : UInt8) : Except Fault (List UInt8) :=
  if i < ledBuffer.length then .ok (ledBuffer.set i value) else .error .undefinedBehaviour

theorem assign_eq_ok_iff (ledBuffer out : List UInt8) (i : Nat) (value : UInt8) :
    assign ledBuffer i value = .ok out ↔ i < ledBuffer.length ∧ ledBuffer.set i value = out := by
  unfold assign
  split_ifs with h <;> simp [h]

def colorBits (color : ColorRgb) : Nat :=
  color.red.toNat * 2 ^ 16 + color.green.toNat * 2 ^ 8 + color.blue.toNat

/-- The inner loop with the table of a driver, from byte `j - 1` of the LED down
to byte 0. -/
def writeBits (bitpairToByte : Nat → UInt8) (spiPtr : Nat) :
    Nat → Nat → List UInt8 → Except Fault (List UInt8)
  | 0, _, ledBuffer => .ok ledBuffer
  | j + 1, bits, ledBuffer =>
      (assign ledBuffer (spiPtr + j) (bitpairToByte (bits % 4))).bind
        (writeBits bitpairToByte spiPtr j (bits / 4))

theorem assign_behind (front written back : List UInt8) (old value : UInt8) :
    assign (front ++ (written ++ old :: back)) (front.length + written.length) value =
      .ok (front ++ (written ++ value :: back)) := by
  rw [← List.append_assoc, ← List.append_assoc, ← List.length_append, assign, if_pos (by simp),
    List.set_append_right _ _ le_rfl, Nat.sub_self, List.set_cons_zero]

def writeLatch (spiPtr : Nat) (ledBuffer : List UInt8) : Except Fault (List UInt8) :=
  (assign ledBuffer spiPtr 0).bind fun ledBuffer =>
    (assign ledBuffer (spiPtr + 1) 0).bind fun ledBuffer => assign ledBuffer (spiPtr + 2) 0

theorem writeLatch_behind (front : List UInt8) {back : List UInt8} (room : 3 ≤ back.length) :
    writeLatch front.length (front ++ back) = .ok (front ++ ([0, 0, 0] ++ back.drop 3)) := by
  obtain ⟨a, back, rfl⟩ := List.exists_cons_of_length_pos (Nat.zero_lt_of_lt room)
  obtain ⟨b, back, rfl⟩ := List.exists_cons_of_length_pos
    (Nat.zero_lt_of_lt (Nat.le_of_succ_le_succ room))
  obtain ⟨c, back, rfl⟩ := List.exists_cons_of_length_pos
    (Nat.zero_lt_of_lt (Nat.le_of_succ_le_succ (Nat.le_of_succ_le_succ room)))
  have first := assign_behind front [] (b :: c :: back) a 0
  have second := assign_behind front [0] (c :: back) b 0
  have third := assign_behind front [0, 0] back c 0
  exact bind_ok.mpr ⟨_, first, bind_ok.mpr ⟨_, second, third⟩⟩

def writeLeds (bitpairToByte : Nat → UInt8) (bytesPerLed : Nat) :
    Nat → List Nat → List UInt8 → Except Fault (List UInt8)
  | spiPtr, [], ledBuffer => writeLatch spiPtr ledBuffer
  | spiPtr, bits :: rest, ledBuffer =>
      (writeBits bitpairToByte spiPtr bytesPerLed bits ledBuffer).bind
        (writeLeds bitpairToByte bytesPerLed (spiPtr + bytesPerLed) rest)

section Room

variable {bitpairToByte : Nat → UInt8}

theorem writeBits_length {spiPtr j bits : Nat} {ledBuffer out : List UInt8}
    (ok : writeBits bitpairToByte spiPtr j bits ledBuffer = .ok out) :
    out.length = ledBuffer.length := by
  induction j generalizing bits ledBuffer with
  | zero => rw [Except.ok.inj ok]
  | succ j ih =>
    obtain ⟨next, written, rest⟩ := bind_ok.mp ok
    obtain ⟨_, rfl⟩ := (assign_eq_ok_iff _ _ _ _).mp written
    rw [ih rest, List.length_set]

theorem writeLeds_room {bytesPerLed spiPtr : Nat} {leds : List Nat} {ledBuffer out : List UInt8}
    (ok : writeLeds bitpairToByte bytesPerLed spiPtr leds ledBuffer = .ok out) :
    spiPtr + leds.length * bytesPerLed + 3 ≤ ledBuffer.length := by
  induction leds generalizing spiPtr ledBuffer with
  | nil =>
    obtain ⟨first, written, ok⟩ := bind_ok.mp ok
    obtain ⟨_, rfl⟩ := (assign_eq_ok_iff _ _ _ _).mp written
    obtain ⟨second, written, ok⟩ := bind_ok.mp ok
    obtain ⟨_, rfl⟩ := (assign_eq_ok_iff _ _ _ _).mp written
    have last := ((assign_eq_ok_iff _ _ _ _).mp ok).1
    rw [List.length_set, List.length_set] at last
    rw [List.length_nil]
    omega
  | cons bits rest ih =>
    obtain ⟨next, written, ok⟩ := bind_ok.mp ok
    have room := ih ok
    rw [writeBits_length written] at room
    rw [List.length_cons, Nat.add_mul]
    omega

end Room

section Code

variable (code : Code 4 UInt8)

theorem writeBits_word (front : List UInt8) {led : List UInt8} {n : Nat} (sized : led.length = n)
    (bits : Nat) (back : List UInt8) :
    writeBits code.encode front.length n bits (front ++ (led ++ back)) =
      .ok (front ++ (code.word n bits ++ back)) := by
  induction led using List.reverseRecOn generalizing n bits back with
  | nil =>
    subst sized
    rfl
  | append_singleton led last ih =>
    subst sized
    have shape : led ++ [last] ++ back = led ++ last :: back := by simp
    rw [List.length_append, List.length_singleton, writeBits, shape, assign_behind]
    refine (ih rfl (bits / 4) (code.encode (bits % 4) :: back)).trans ?_
    simp [Code.word, digits]

theorem writeLeds_frame {bytesPerLed : Nat} (front : List UInt8) {leds : List Nat}
    {back : List UInt8} (room : leds.length * bytesPerLed + 3 ≤ back.length) :
    writeLeds code.encode bytesPerLed front.length leds (front ++ back) =
      .ok (front ++ (frame [] [0, 0, 0] (code.word bytesPerLed) leds ++
        back.drop (leds.length * bytesPerLed + 3))) := by
  induction leds generalizing front back with
  | nil =>
    rw [List.length_nil, Nat.zero_mul, Nat.zero_add] at room
    rw [List.length_nil, Nat.zero_mul, Nat.zero_add]
    exact writeLatch_behind front room
  | cons bits rest ih =>
    rw [List.length_cons, Nat.add_mul, Nat.one_mul] at room
    have sized := List.length_take_of_le (show bytesPerLed ≤ back.length by omega)
    have here := writeBits_word code front sized bits (back.drop bytesPerLed)
    rw [List.take_append_drop] at here
    have next : front.length + bytesPerLed = (front ++ code.word bytesPerLed bits).length := by
      rw [List.length_append, Code.word_length]
    have others : (back.drop bytesPerLed).length = back.length - bytesPerLed := List.length_drop
    have behind := ih (front ++ code.word bytesPerLed bits)
      (show _ ≤ (back.drop bytesPerLed).length by omega)
    rw [← next, List.append_assoc, List.drop_drop] at behind
    have place : (bits :: rest).length * bytesPerLed + 3 =
        bytesPerLed + (rest.length * bytesPerLed + 3) := by
      rw [List.length_cons]
      ring
    refine bind_ok.mpr ⟨_, here, behind.trans ?_⟩
    rw [frame_cons, place]
    simp

theorem writeLeds_values {α : Type} {bytesPerLed : Nat} (bits : α → Nat) {values : List α}
    {ledBuffer : List UInt8} (room : values.length * bytesPerLed + 3 ≤ ledBuffer.length) :
    writeLeds code.encode bytesPerLed 0 (values.map bits) ledBuffer =
      .ok (frame [] [0, 0, 0] (fun value => code.word bytesPerLed (bits value)) values ++
        ledBuffer.drop (values.length * bytesPerLed + 3)) := by
  rw [← List.length_map (f := bits)] at room ⊢
  rw [← frame_map]
  exact writeLeds_frame code [] room

def channel (value : UInt8) : List UInt8 := code.word 4 value.toNat

def channel? (bytes : List UInt8) : Option UInt8 := (code.value? bytes).map UInt8.ofNat

def channels? (count : Nat) (bytes : List UInt8) : Option (List UInt8) :=
  frame? 4 [] [] (channel? code) count bytes

def channelBits (channels : List UInt8) : Nat := ofDigits 256 (channels.map UInt8.toNat)

theorem channel?_channel (value : UInt8) : channel? code (channel code value) = some value := by
  rw [channel?, channel, code.value?_word (by decide) value.toNat_lt, Option.map_some,
    UInt8.ofNat_toNat]

theorem word_channelBits (channels : List UInt8) :
    code.word (channels.length * 4) (channelBits channels) = channels.flatMap (channel code) := by
  have below : ∀ d ∈ channels.map UInt8.toNat, d < 4 ^ 4 := by
    intro d held
    obtain ⟨value, _, rfl⟩ := List.mem_map.mp held
    exact value.toNat_lt
  have side := digits_ofDigits (show 0 < 4 by decide) below
  rw [List.length_map, List.flatMap_map] at side
  rw [Code.word, channelBits, show (256 : Nat) = 4 ^ 4 from rfl, side, List.map_flatMap]
  rfl

theorem channels?_word (channels : List UInt8) :
    channels? code channels.length (code.word (channels.length * 4) (channelBits channels)) =
      some channels := by
  have sized : ∀ value, (channel code value).length = 4 := fun value => code.word_length 4 _
  have whole := frame?_frame [] [] sized (channel?_channel code) channels
  rw [word_channelBits, channels?, ← whole]
  simp [frame]

def color? (bytes : List UInt8) : Option ColorRgb :=
  (channels? code 3 bytes).bind fun channels =>
    match channels with
    | [red, green, blue] => some ⟨red, green, blue⟩
    | _ => none

theorem colorBits_eq (color : ColorRgb) :
    colorBits color = channelBits [color.red, color.green, color.blue] := by
  simp only [colorBits, channelBits, ofDigits, List.map_cons, List.map_nil, List.foldl_cons,
    List.foldl_nil]
  ring

theorem color?_word (color : ColorRgb) :
    color? code (code.word (3 * 4) (colorBits color)) = some color := by
  have channels := channels?_word code [color.red, color.green, color.blue]
  rw [← colorBits_eq] at channels
  exact congrArg (Option.bind · _) channels

end Code

end HyperionNg.SpiWaveform
