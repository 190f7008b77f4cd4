import HyperionNg.Json
import HyperionNg.SpiWaveform

/-! The SK6812 driver over SPI, for LEDs with a white channel. A colour is first
converted into a member of the driver, which its constructor does not
initialise; reading it before it is written is not defined. -/

namespace HyperionNg

open Library.Execution Library.Waveform SpiWaveform

structure ColorRgbw where
  red : UInt8
  green : UInt8
  blue : UInt8
  white : UInt8
deriving DecidableEq, Repr

namespace RGBW

inductive WhiteAlgorithm
  | invalid
  | subtractMinimum
  | subMinWarmAdjust
  | whiteOff
deriving DecidableEq, Repr

def stringToWhiteAlgorithm (str : String) : WhiteAlgorithm :=
  if str = "subtract_minimum" then .subtractMinimum
  else if str = "sub_min_warm_adjust" then .subMinWarmAdjust
  else if str = "" ∨ str = "white_off" then .whiteOff
  else .invalid

/-- What `output` holds afterwards; `none` as long as nothing was written to it. -/
def rgbToRgbw (input : ColorRgb) (output : Option ColorRgbw) :
    WhiteAlgorithm → Option ColorRgbw
  | .subtractMinimum =>
    let white := min (min input.red input.green) input.blue
    some ⟨input.red - white, input.green - white, input.blue - white, white⟩
  | .whiteOff => some ⟨input.red, input.green, input.blue, 0⟩
  -- "is not implemented yet"
  | .subMinWarmAdjust => output
  | .invalid => output

/-- The white component is taken out of the channels, or there is none. -/
def AddsUp (algorithm : WhiteAlgorithm) (input : ColorRgb) (output : ColorRgbw) : Prop :=
  (algorithm = .whiteOff → output.white = 0) ∧
    (algorithm = .whiteOff ∨ algorithm = .subtractMinimum →
      output.red.toNat + output.white.toNat = input.red.toNat ∧
        output.green.toNat + output.white.toNat = input.green.toNat ∧
        output.blue.toNat + output.white.toNat = input.blue.toNat)

def converted (algorithm : WhiteAlgorithm) (input : ColorRgb) : ColorRgbw :=
  (rgbToRgbw input none algorithm).getD ⟨0, 0, 0, 0⟩

theorem min_toNat (a b : UInt8) : (min a b).toNat = min a.toNat b.toNat := by
  rw [show min a b = if a ≤ b then a else b from rfl]
  by_cases below : a ≤ b
  · have least : a.toNat ≤ b.toNat := below
    rw [if_pos below, Nat.min_eq_left least]
  · have greater : ¬ a.toNat ≤ b.toNat := below
    rw [if_neg below, Nat.min_eq_right (Nat.le_of_not_le greater)]

private theorem sub_add_toNat {value white : UInt8} (below : white.toNat ≤ value.toNat) :
    (value - white).toNat + white.toNat = value.toNat := by
  rw [UInt8.toNat_sub_of_le value white below]
  omega

theorem converted_addsUp (algorithm : WhiteAlgorithm) (input : ColorRgb) :
    AddsUp algorithm input (converted algorithm input) := by
  cases algorithm with
  | whiteOff => exact ⟨fun _ => rfl, fun _ => ⟨rfl, rfl, rfl⟩⟩
  | subtractMinimum =>
    have least : (min (min input.red input.green) input.blue).toNat =
        min (min input.red.toNat input.green.toNat) input.blue.toNat := by
      rw [min_toNat, min_toNat]
    refine ⟨nofun, fun _ => ⟨sub_add_toNat ?_, sub_add_toNat ?_, sub_add_toNat ?_⟩⟩ <;> omega
  | subMinWarmAdjust => exact ⟨nofun, nofun⟩
  | invalid => exact ⟨nofun, nofun⟩

theorem rgbToRgbw_eq {algorithm : WhiteAlgorithm} (known : algorithm ≠ .invalid)
    (implemented : algorithm ≠ .subMinWarmAdjust) (input : ColorRgb) (output : Option ColorRgbw) :
    rgbToRgbw input output algorithm = some (converted algorithm input) := by
  cases algorithm with
  | whiteOff => rfl
  | subtractMinimum => rfl
  | subMinWarmAdjust => exact absurd rfl implemented
  | invalid => exact absurd rfl known

end RGBW

open RGBW

structure LedDeviceSk6812SPI where
  whiteAlgorithm : WhiteAlgorithm := .invalid
  tempRgbw : Option ColorRgbw := none
  ledBuffer : List UInt8 := []

namespace LedDeviceSk6812SPI

def bitpairToByte (bits : Nat) : UInt8 :=
  match bits with
  | 0 => 0b10001000
  | 1 => 0b10001100
  | 2 => 0b11001000
  | _ => 0b11001100

/-- `sizeof(ColorRgbw) * SPI_BYTES_PER_COLOUR` -/
def spiBytesPerLed : Nat := 4 * 4

def spiFrameEndLatchBytes : Nat := 3

/-- `deviceConfig["white_algorithm"].toString("white_off")` -/
def whiteAlgorithmName (deviceConfig : QJsonObject) : String :=
  ((deviceConfig.value "white_algorithm").getD .null).toString "white_off"

/-- The device after the constructor; `none` where it is not ready. -/
def init (ledCount : Nat) (deviceConfig : QJsonObject) : Option LedDeviceSk6812SPI :=
  let whiteAlgorithm := stringToWhiteAlgorithm (whiteAlgorithmName deviceConfig)
  if whiteAlgorithm = .invalid then none
  else
    some {
      whiteAlgorithm
      ledBuffer := List.replicate (ledCount * spiBytesPerLed + spiFrameEndLatchBytes) 0 }

def colorBits (color : ColorRgbw) : Nat :=
  color.red.toNat * 2 ^ 24 + color.green.toNat * 2 ^ 16 + color.blue.toNat * 2 ^ 8 +
    color.white.toNat

def writeFrom (whiteAlgorithm : WhiteAlgorithm) :
    Nat → List ColorRgb → Option ColorRgbw × List UInt8 →
      Except Fault (Option ColorRgbw × List UInt8)
  | spiPtr, [], (tempRgbw, ledBuffer) =>
      (writeLatch spiPtr ledBuffer).map fun ledBuffer => (tempRgbw, ledBuffer)
  | spiPtr, color :: rest, (tempRgbw, ledBuffer) =>
    match rgbToRgbw color tempRgbw whiteAlgorithm with
    | none => .error .undefinedBehaviour
    | some rgbw =>
      (writeBits bitpairToByte spiPtr spiBytesPerLed (colorBits rgbw) ledBuffer).bind
        fun ledBuffer => writeFrom whiteAlgorithm (spiPtr + spiBytesPerLed) rest
          (some rgbw, ledBuffer)

def write (d : LedDeviceSk6812SPI) (ledValues : List ColorRgb) : Except Fault LedDeviceSk6812SPI :=
  (writeFrom d.whiteAlgorithm 0 ledValues (d.tempRgbw, d.ledBuffer)).map
    fun (tempRgbw, ledBuffer) => { d with tempRgbw, ledBuffer }

def code : Code 4 UInt8 := ⟨bitpairToByte, bitpair? 0b1100, by decide⟩

def color? (bytes : List UInt8) : Option ColorRgbw :=
  (channels? code 4 bytes).bind fun channels =>
    match channels with
    | [red, green, blue, white] => some ⟨red, green, blue, white⟩
    | _ => none

def ledWord (color : ColorRgbw) : List UInt8 := code.word spiBytesPerLed (colorBits color)

theorem colorBits_eq (color : ColorRgbw) :
    colorBits color = channelBits [color.red, color.green, color.blue, color.white] := by
  simp only [colorBits, channelBits, ofDigits, List.map_cons, List.map_nil, List.foldl_cons,
    List.foldl_nil]
  ring

private theorem color?_ledWord (color : ColorRgbw) : color? (ledWord color) = some color := by
  have channels := channels?_word code [color.red, color.green, color.blue, color.white]
  rw [← colorBits_eq] at channels
  exact congrArg (Option.bind · _) channels

def Shows (convert : ColorRgb → ColorRgbw) (ledValues : List ColorRgb) (ledBuffer : List UInt8) :
    Prop :=
  Carries 16 [] [0, 0, 0] color? (ledValues.map convert)
    (ledBuffer.take (ledValues.length * 16 + 3))

/-- Each frame is written inside the buffer and shown. -/
def Sends (convert : ColorRgb → ColorRgbw) : LedDeviceSk6812SPI → List (List ColorRgb) → Prop
  | _, [] => True
  | d, ledValues :: rest =>
    ∃ next, write d ledValues = .ok next ∧ Shows convert ledValues next.ledBuffer ∧
      Sends convert next rest

def Implemented (whiteAlgorithm : WhiteAlgorithm) (ledValues : List ColorRgb) : Prop :=
  whiteAlgorithm ≠ .invalid ∧ (whiteAlgorithm = .subMinWarmAdjust → ledValues = [])

theorem writeFrom_eq {whiteAlgorithm : WhiteAlgorithm} {ledValues : List ColorRgb}
    (implemented : Implemented whiteAlgorithm ledValues) (spiPtr : Nat)
    (tempRgbw : Option ColorRgbw) (ledBuffer : List UInt8) :
    ∃ last, writeFrom whiteAlgorithm spiPtr ledValues (tempRgbw, ledBuffer) =
      (writeLeds bitpairToByte spiBytesPerLed spiPtr
        (ledValues.map fun color => colorBits (converted whiteAlgorithm color)) ledBuffer).map
          fun ledBuffer => (last, ledBuffer) := by
  obtain ⟨known, missing⟩ := implemented
  induction ledValues generalizing spiPtr tempRgbw ledBuffer with
  | nil => exact ⟨tempRgbw, rfl⟩
  | cons color rest ih =>
    have there : whiteAlgorithm ≠ .subMinWarmAdjust := fun same => absurd (missing same) nofun
    rw [writeFrom, rgbToRgbw_eq known there, List.map_cons, writeLeds]
    simp only
    cases written : writeBits bitpairToByte spiPtr spiBytesPerLed
        (colorBits (converted whiteAlgorithm color)) ledBuffer with
    | error fault => exact ⟨none, rfl⟩
    | ok next =>
      exact ih (spiPtr + spiBytesPerLed) (some (converted whiteAlgorithm color)) next
        fun same => absurd same there

theorem write_shows {d : LedDeviceSk6812SPI} {ledValues : List ColorRgb}
    (implemented : Implemented d.whiteAlgorithm ledValues)
    (room : ledValues.length * 16 + 3 ≤ d.ledBuffer.length) :
    ∃ next, write d ledValues = .ok next ∧
      Shows (converted d.whiteAlgorithm) ledValues next.ledBuffer ∧
      next.whiteAlgorithm = d.whiteAlgorithm ∧ next.ledBuffer.length = d.ledBuffer.length := by
  obtain ⟨last, loop⟩ := writeFrom_eq implemented 0 d.tempRgbw d.ledBuffer
  have words : ∀ color, (ledWord color).length = 16 := fun color => Code.word_length code _ _
  have carries := carries_frame [] [0, 0, 0] words color?_ledWord
    (ledValues.map (converted d.whiteAlgorithm))
  have written : writeLeds code.encode 16 0
      (ledValues.map fun color => colorBits (converted d.whiteAlgorithm color)) d.ledBuffer =
        .ok (frame [] [0, 0, 0] ledWord (ledValues.map (converted d.whiteAlgorithm)) ++
          d.ledBuffer.drop (ledValues.length * 16 + 3)) := by
    rw [frame_map]
    exact writeLeds_values code _ room
  generalize frame [] [0, 0, 0] ledWord (ledValues.map (converted d.whiteAlgorithm)) = sent
    at carries written
  have length : sent.length = ledValues.length * 16 + 3 := by simpa using carries.length
  refine ⟨_, map_eq_ok.mpr ⟨_, loop.trans (map_eq_ok.mpr ⟨_, written, rfl⟩), rfl⟩, ?_, rfl, ?_⟩
  · rw [Shows, List.take_left' length]
    exact carries
  · rw [List.length_append, List.length_drop, length]
    omega

theorem sends_of_fits {d : LedDeviceSk6812SPI} {frames : List (List ColorRgb)}
    (fits : ∀ ledValues ∈ frames, Implemented d.whiteAlgorithm ledValues ∧
      ledValues.length * 16 + 3 ≤ d.ledBuffer.length) :
    Sends (converted d.whiteAlgorithm) d frames := by
  induction frames generalizing d with
  | nil => trivial
  | cons ledValues rest ih =>
    obtain ⟨implemented, room⟩ := fits ledValues List.mem_cons_self
    obtain ⟨next, ok, shows, same, length⟩ := write_shows implemented room
    refine ⟨next, ok, shows, ?_⟩
    rw [← same]
    refine ih fun other held => ?_
    rw [same, length]
    exact fits other (List.mem_cons_of_mem ledValues held)

theorem write_fits {d next : LedDeviceSk6812SPI} {ledValues : List ColorRgb}
    (known : d.whiteAlgorithm ≠ .invalid) (unwritten : d.tempRgbw = none)
    (ok : write d ledValues = .ok next) :
    (d.whiteAlgorithm = .subMinWarmAdjust → ledValues = []) ∧
      ledValues.length * 16 + 3 ≤ d.ledBuffer.length := by
  have missing : d.whiteAlgorithm = .subMinWarmAdjust → ledValues = [] := by
    intro same
    cases ledValues with
    | nil => rfl
    | cons color rest =>
      rw [write, unwritten, same] at ok
      exact absurd ok nofun
  refine ⟨missing, ?_⟩
  obtain ⟨last, loop⟩ := writeFrom_eq ⟨known, missing⟩ 0 d.tempRgbw d.ledBuffer
  rw [write, loop] at ok
  obtain ⟨_, ok, _⟩ := map_eq_ok.mp ok
  obtain ⟨ledBuffer, ok, _⟩ := map_eq_ok.mp ok
  have room := writeLeds_room ok
  rwa [Nat.zero_add, List.length_map] at room

theorem init_eq_some {ledCount : Nat} {deviceConfig : QJsonObject} {d : LedDeviceSk6812SPI}
    (accepted : init ledCount deviceConfig = some d) :
    d.whiteAlgorithm = stringToWhiteAlgorithm (whiteAlgorithmName deviceConfig) ∧
      d.whiteAlgorithm ≠ .invalid ∧ d.tempRgbw = none ∧ d.ledBuffer.length = ledCount * 16 + 3 := by
  unfold init at accepted
  simp only at accepted
  split at accepted
  · exact absurd accepted nofun
  · next known =>
    rw [← Option.some.inj accepted]
    exact ⟨rfl, known, rfl, List.length_replicate⟩

theorem stringToWhiteAlgorithm_eq_subMinWarmAdjust {str : String} :
    stringToWhiteAlgorithm str = .subMinWarmAdjust ↔ str = "sub_min_warm_adjust" := by
  constructor
  · intro same
    unfold stringToWhiteAlgorithm at same
    split at same
    · exact absurd same nofun
    · split at same
      · next name => exact name
      · split at same <;> exact absurd same nofun
  · rintro rfl
    rfl

/-- Each LED shows a colour made of its own input colour only, which adds up, and
every write is inside the buffer, in all runs of the frames that are given,
exactly when these frames fit the LED count and the algorithm is one that is
implemented. -/
theorem sends_ownColors_iff {ledCount : Nat} {deviceConfig : QJsonObject} {d : LedDeviceSk6812SPI}
    (accepted : init ledCount deviceConfig = some d) (Given : List ColorRgb → Prop) :
    (∃ convert : ColorRgb → ColorRgbw,
        (∀ color, AddsUp d.whiteAlgorithm color (convert color)) ∧
        ∀ frames : List (List ColorRgb), (∀ ledValues ∈ frames, Given ledValues) →
          Sends convert d frames) ↔
      ∀ ledValues, Given ledValues → ledValues.length ≤ ledCount ∧
        (whiteAlgorithmName deviceConfig = "sub_min_warm_adjust" → ledValues = []) := by
  obtain ⟨algorithm, known, unwritten, length⟩ := init_eq_some accepted
  have named : whiteAlgorithmName deviceConfig = "sub_min_warm_adjust" ↔
      d.whiteAlgorithm = .subMinWarmAdjust := by
    rw [algorithm, stringToWhiteAlgorithm_eq_subMinWarmAdjust]
  simp only [named]
  constructor
  · rintro ⟨convert, _, sends⟩ ledValues given
    obtain ⟨next, ok, _⟩ := sends [ledValues] (by simpa using given)
    obtain ⟨missing, room⟩ := write_fits known unwritten ok
    exact ⟨by omega, missing⟩
  · intro fits
    refine ⟨converted d.whiteAlgorithm, converted_addsUp _, fun frames given => ?_⟩
    refine sends_of_fits fun ledValues held => ?_
    obtain ⟨short, missing⟩ := fits ledValues (given ledValues held)
    exact ⟨⟨known, missing⟩, by omega⟩

def oneLed (whiteAlgorithm : WhiteAlgorithm) : LedDeviceSk6812SPI :=
  { whiteAlgorithm, ledBuffer := List.replicate 19 0 }

theorem sends_ownColors_one_led : ∃ convert : ColorRgb → ColorRgbw,
    (∀ color, AddsUp .subtractMinimum color (convert color)) ∧
      ∀ frames : List (List ColorRgb), (∀ ledValues ∈ frames, ledValues.length = 1) →
        Sends convert (oneLed .subtractMinimum) frames :=
  (sends_ownColors_iff (show init 1 [("white_algorithm", .string "subtract_minimum")] =
    some (oneLed .subtractMinimum) from rfl) fun ledValues => ledValues.length = 1).mpr
      fun _ one => ⟨one.le, fun name => absurd name (by decide)⟩

/-- An algorithm that is accepted and not implemented: the first colour sent is
that of the uninitialised member. -/
theorem not_ownColors_subMinWarmAdjust :
    init 1 [("white_algorithm", .string "sub_min_warm_adjust")] =
        some (oneLed .subMinWarmAdjust) ∧
      ¬ ∃ convert : ColorRgb → ColorRgbw,
        (∀ color, AddsUp .subMinWarmAdjust color (convert color)) ∧
          ∀ frames : List (List ColorRgb), (∀ ledValues ∈ frames, ledValues = [⟨10, 20, 30⟩]) →
            Sends convert (oneLed .subMinWarmAdjust) frames := by
  refine ⟨rfl, fun ⟨convert, _, sends⟩ => ?_⟩
  obtain ⟨next, ok, _⟩ := sends [[⟨10, 20, 30⟩]] (by simp)
  exact absurd ok nofun

end LedDeviceSk6812SPI

end HyperionNg
