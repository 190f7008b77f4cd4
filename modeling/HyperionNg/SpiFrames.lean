import HyperionNg.LedDeviceSk6822SPI
import HyperionNg.LedDeviceWs2812SPI

/-! What the WS2812 and the SK6822 driver send over SPI: the bytes read back as
pulses are the colours of the frame, whatever frames the buffer held before. -/

namespace HyperionNg

open Library.Execution Library.Waveform SpiWaveform

namespace LedDeviceWs2812SPI

def ledWord (color : ColorRgb) : List UInt8 := code.word spiBytesPerLed (colorBits color)

def latch : List UInt8 := List.replicate spiFrameEndLatchBytes 0

/-- A buffer for so many LEDs. -/
def Sized (ledCount : Nat) (ledBuffer : List UInt8) : Prop :=
  ledBuffer.length = ledCount * spiBytesPerLed + spiFrameEndLatchBytes

private theorem ledFrame_length (ledValues : List ColorRgb) :
    (frame [] latch ledWord ledValues).length =
      ledValues.length * spiBytesPerLed + spiFrameEndLatchBytes :=
  frame_length [] latch (fun color => Code.word_length code _ (colorBits color)) ledValues

theorem Sized.write {ledCount : Nat} {ledBuffer : List UInt8} (sized : Sized ledCount ledBuffer)
    {ledValues : List ColorRgb} (short : ledValues.length ≤ ledCount) :
    ∃ out, write ledBuffer ledValues = .ok out ∧ Sized ledCount out ∧
      (ledValues.length = ledCount → out = frame [] latch ledWord ledValues) := by
  have room : ledValues.length * spiBytesPerLed + spiFrameEndLatchBytes ≤ ledBuffer.length := by
    rw [sized]
    exact Nat.add_le_add_right (Nat.mul_le_mul_right _ short) _
  have written : LedDeviceWs2812SPI.write ledBuffer ledValues =
      .ok (frame [] latch ledWord ledValues ++
        ledBuffer.drop (ledValues.length * spiBytesPerLed + spiFrameEndLatchBytes)) :=
    writeLeds_values code colorBits room
  refine ⟨_, written, ?_, fun full => ?_⟩
  · rw [Sized, List.length_append, ledFrame_length, List.length_drop, ← sized]
    omega
  · rw [List.drop_eq_nil_of_le (by rw [sized, full]), List.append_nil]

theorem exists_sized {ledCount : Nat} {frames : List (List ColorRgb)}
    (short : ∀ ledValues ∈ frames, ledValues.length ≤ ledCount) :
    ∃ ledBuffer, Reaches write (init ledCount) frames ledBuffer ∧ Sized ledCount ledBuffer := by
  refine exists_reaches_keeping (R := fun ledValues => ledValues.length ≤ ledCount)
    (fun ledBuffer ledValues sized short => ?_) (init_length ledCount) short
  obtain ⟨out, ok, kept, _⟩ := sized.write short
  exact ⟨out, ok, kept⟩

theorem write_carries {ledCount : Nat} {ledBuffer : List UInt8} (sized : Sized ledCount ledBuffer)
    {ledValues : List ColorRgb} (full : ledValues.length = ledCount) :
    ∃ out, write ledBuffer ledValues = .ok out ∧
      Carries spiBytesPerLed [] latch (color? code) ledValues out := by
  obtain ⟨out, ok, _, exactly⟩ := sized.write full.le
  rw [exactly full] at ok
  exact ⟨_, ok, carries_frame [] latch (fun color => Code.word_length code _ _)
    (color?_word code) ledValues⟩

end LedDeviceWs2812SPI

namespace SpiWaveform

/-- Both drivers send each frame for all LEDs whole, whatever frames came before
it: the words of its colours up to the latch area, and zeros there. -/
theorem write_decodes {ledCount : Nat} {frames : List (List ColorRgb)} {ledValues : List ColorRgb}
    (short : ∀ frame ∈ frames, frame.length ≤ ledCount) (full : ledValues.length = ledCount) :
    (∃ before out, Reaches LedDeviceWs2812SPI.write (LedDeviceWs2812SPI.init ledCount) frames
        before ∧ LedDeviceWs2812SPI.write before ledValues = .ok out ∧
      Carries 12 [] [0, 0, 0] (color? LedDeviceWs2812SPI.code) ledValues out) ∧
    ∃ before out, Reaches LedDeviceSk6822SPI.write (LedDeviceSk6822SPI.init ledCount) frames
        before ∧ LedDeviceSk6822SPI.write before ledValues = .ok out ∧
      Carries 12 [0, 0, 0] (List.replicate 13 0) (color? LedDeviceSk6822SPI.code)
        ledValues out := by
  constructor
  · obtain ⟨before, run, sized⟩ := LedDeviceWs2812SPI.exists_sized short
    obtain ⟨out, ok, carries⟩ := LedDeviceWs2812SPI.write_carries sized full
    exact ⟨before, out, run, ok, carries⟩
  · obtain ⟨before, run, slots⟩ := LedDeviceSk6822SPI.exists_slots short
    obtain ⟨out, ok, carries⟩ := LedDeviceSk6822SPI.write_carries slots full
    exact ⟨before, out, run, ok, carries⟩

theorem write_decodes_three_leds :
    let first : List ColorRgb := [⟨1, 2, 3⟩, ⟨4, 5, 6⟩, ⟨7, 8, 9⟩]
    let second : List ColorRgb := [⟨255, 255, 255⟩, ⟨128, 64, 32⟩]
    let third : List ColorRgb := [⟨255, 0, 27⟩, ⟨0, 255, 0⟩, ⟨16, 32, 64⟩]
    (∃ before out, Reaches LedDeviceWs2812SPI.write (LedDeviceWs2812SPI.init 3) [first, second]
        before ∧ LedDeviceWs2812SPI.write before third = .ok out ∧
      Carries 12 [] [0, 0, 0] (color? LedDeviceWs2812SPI.code) third out) ∧
    ∃ before out, Reaches LedDeviceSk6822SPI.write (LedDeviceSk6822SPI.init 3) [first, second]
        before ∧ LedDeviceSk6822SPI.write before third = .ok out ∧
      Carries 12 [0, 0, 0] (List.replicate 13 0) (color? LedDeviceSk6822SPI.code) third out := by
  intro first second third
  have short : ∀ frame ∈ [first, second], frame.length ≤ 3 := by
    rw [List.forall_mem_cons, List.forall_mem_singleton]
    exact ⟨le_refl 3, Nat.le_succ 2⟩
  exact write_decodes short rfl

end SpiWaveform

end HyperionNg
