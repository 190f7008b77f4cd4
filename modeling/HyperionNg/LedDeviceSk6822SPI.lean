import HyperionNg.SpiWaveform

/-! The SK6822 driver over SPI. It never writes the bytes of the wait behind each
LED and of the latch area: they are those the buffer was made with, in every
frame. -/

namespace HyperionNg

open Library.Execution Library.Waveform SpiWaveform

namespace LedDeviceSk6822SPI

def bitpairToByte (bits : Nat) : UInt8 :=
  match bits with
  | 0 => 0b10001000
  | 1 => 0b10001110
  | 2 => 0b11101000
  | _ => 0b11101110

/-- `sizeof(ColorRgb) * SPI_BYTES_PER_COLOUR` -/
def spiBytesPerLed : Nat := 3 * 4

def spiBytesWaitTime : Nat := 3

def spiFrameEndLatchBytes : Nat := 13

def init (ledCount : Nat) : List UInt8 :=
  List.replicate (ledCount * spiBytesPerLed + ledCount * spiBytesWaitTime + spiFrameEndLatchBytes) 0

def writeFrom : Nat → List ColorRgb → List UInt8 → Except Fault (List UInt8)
  | _, [], ledBuffer => .ok ledBuffer
  | spiPtr, color :: rest, ledBuffer =>
      (writeBits bitpairToByte spiPtr spiBytesPerLed (colorBits color) ledBuffer).bind
        (writeFrom (spiPtr + spiBytesPerLed + spiBytesWaitTime) rest)

def write (ledBuffer : List UInt8) (ledValues : List ColorRgb) : Except Fault (List UInt8) :=
  writeFrom 0 ledValues ledBuffer

def code : Code 4 UInt8 := ⟨bitpairToByte, bitpair? 0b1110, by decide⟩

def ledWord (color : ColorRgb) : List UInt8 :=
  code.word spiBytesPerLed (colorBits color)

def wait : List UInt8 := List.replicate spiBytesWaitTime 0

def latch : List UInt8 := List.replicate spiFrameEndLatchBytes 0

def Slots (ledCount : Nat) (ledBuffer : List UInt8) : Prop :=
  ∃ slots : List (List UInt8), slots.length = ledCount ∧
    (∀ slot ∈ slots, slot.length = spiBytesPerLed) ∧ ledBuffer = frame wait latch id slots

theorem init_slots (ledCount : Nat) : Slots ledCount (init ledCount) := by
  refine ⟨List.replicate ledCount (List.replicate spiBytesPerLed 0), List.length_replicate,
    fun slot held => ?_, ?_⟩
  · rw [List.eq_of_mem_replicate held, List.length_replicate]
  · induction ledCount with
    | zero => rfl
    | succ ledCount ih =>
      have longer : init (ledCount + 1) =
          List.replicate spiBytesPerLed 0 ++ (wait ++ init ledCount) := by
        simp only [init, wait, List.replicate_append_replicate]
        congr 1
        ring
      rw [longer, ih, List.replicate_succ, frame_cons]
      rfl

theorem writeFrom_slots (front : List UInt8) {ledValues : List ColorRgb} {slots : List (List UInt8)}
    (sized : ∀ slot ∈ slots, slot.length = spiBytesPerLed)
    (short : ledValues.length ≤ slots.length) :
    writeFrom front.length ledValues (front ++ frame wait latch id slots) =
      .ok (front ++
        frame wait latch id (ledValues.map ledWord ++ slots.drop ledValues.length)) := by
  induction ledValues generalizing front slots with
  | nil => rfl
  | cons color rest ih =>
    obtain ⟨slot, slots, rfl⟩ := List.exists_cons_of_length_pos (Nat.zero_lt_of_lt short)
    have here := writeBits_word code front (sized slot List.mem_cons_self)
      (colorBits color) (wait ++ frame wait latch id slots)
    have next : front.length + spiBytesPerLed + spiBytesWaitTime =
        (front ++ (ledWord color ++ wait)).length := by
      rw [List.length_append, List.length_append, ledWord, Code.word_length, wait,
        List.length_replicate, Nat.add_assoc]
    rw [writeFrom, frame_cons, id_eq]
    refine bind_ok.mpr ⟨_, here, ?_⟩
    have rest := ih (front ++ (ledWord color ++ wait))
      (fun slot held => sized slot (List.mem_cons_of_mem _ held)) (Nat.le_of_succ_le_succ short)
    rw [next]
    refine Eq.trans ?_ (rest.trans ?_)
    · simp [ledWord]
    · rw [List.map_cons, List.length_cons, List.drop_succ_cons, List.cons_append, frame_cons]
      simp

theorem Slots.write {ledCount : Nat} {ledBuffer : List UInt8} (slots : Slots ledCount ledBuffer)
    {ledValues : List ColorRgb} (short : ledValues.length ≤ ledCount) :
    ∃ out, write ledBuffer ledValues = .ok out ∧ Slots ledCount out ∧
      (ledValues.length = ledCount → out = frame wait latch ledWord ledValues) := by
  obtain ⟨slots, count, sized, rfl⟩ := slots
  refine ⟨_, writeFrom_slots [] sized (by omega), ⟨_, ?_, ?_, rfl⟩, fun full => ?_⟩
  · rw [List.length_append, List.length_map, List.length_drop]
    omega
  · intro slot held
    rcases List.mem_append.mp held with written | left
    · obtain ⟨color, _, rfl⟩ := List.mem_map.mp written
      exact Code.word_length _ _ _
    · exact sized slot (List.mem_of_mem_drop left)
  · rw [List.drop_eq_nil_of_le (by omega), List.append_nil, frame_map]
    rfl

theorem exists_slots {ledCount : Nat} {frames : List (List ColorRgb)}
    (short : ∀ ledValues ∈ frames, ledValues.length ≤ ledCount) :
    ∃ ledBuffer, Reaches write (init ledCount) frames ledBuffer ∧ Slots ledCount ledBuffer := by
  refine exists_reaches_keeping (R := fun ledValues => ledValues.length ≤ ledCount)
    (fun ledBuffer ledValues slots short => ?_) (init_slots ledCount) short
  obtain ⟨out, ok, kept, _⟩ := slots.write short
  exact ⟨out, ok, kept⟩

theorem write_carries {ledCount : Nat} {ledBuffer : List UInt8} (slots : Slots ledCount ledBuffer)
    {ledValues : List ColorRgb} (full : ledValues.length = ledCount) :
    ∃ out, write ledBuffer ledValues = .ok out ∧
      Carries spiBytesPerLed wait latch (color? code) ledValues out := by
  obtain ⟨out, ok, _, exactly⟩ := slots.write full.le
  rw [exactly full] at ok
  exact ⟨_, ok, carries_frame wait latch (fun color => Code.word_length _ _ _)
    (color?_word code) ledValues⟩

end LedDeviceSk6822SPI

end HyperionNg
