import HyperionNg.SpiWaveform

/-! The WS2812 driver over SPI. Its buffer is sized from `LedDevice::_ledCount`
when the driver is initialised; `write` then loops over the colours it is
given. -/

namespace HyperionNg.LedDeviceWs2812SPI

open Library.Waveform SpiWaveform

def bitpairToByte (bits : Nat) : UInt8 :=
  match bits with
  | 0 => 0b10001000
  | 1 => 0b10001100
  | 2 => 0b11001000
  | _ => 0b11001100

/-- `sizeof(ColorRgb) * SPI_BYTES_PER_COLOUR` -/
def spiBytesPerLed : Nat := 3 * 4

def spiFrameEndLatchBytes : Nat := 3

def init (ledCount : Nat) : List UInt8 :=
  List.replicate (ledCount * spiBytesPerLed + spiFrameEndLatchBytes) 0

def write (ledBuffer : List UInt8) (ledValues : List ColorRgb) : Except Fault (List UInt8) :=
  writeLeds bitpairToByte spiBytesPerLed 0 (ledValues.map colorBits) ledBuffer

def code : Code 4 UInt8 := ⟨bitpairToByte, bitpair? 0b1100, by decide⟩

@[simp] theorem init_length (ledCount : Nat) : (init ledCount).length = ledCount * 12 + 3 := by
  simp [init, spiBytesPerLed, spiFrameEndLatchBytes]

theorem write_returns_iff (ledCount : Nat) (ledValues : List ColorRgb) :
    (∃ out, write (init ledCount) ledValues = .ok out) ↔ ledValues.length ≤ ledCount := by
  have size := init_length ledCount
  constructor
  · rintro ⟨out, ok⟩
    have room := writeLeds_room ok
    rw [List.length_map, size, spiBytesPerLed] at room
    omega
  · intro short
    refine ⟨_, writeLeds_values code colorBits ?_⟩
    rw [size, spiBytesPerLed]
    omega

example : write (init 1) [⟨255, 0, 27⟩] = .ok [0xCC, 0xCC, 0xCC, 0xCC, 0x88, 0x88, 0x88, 0x88,
    0x88, 0x8C, 0xC8, 0xCC, 0, 0, 0] := by decide +kernel

end HyperionNg.LedDeviceWs2812SPI
