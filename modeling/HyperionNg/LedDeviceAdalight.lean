import HyperionNg.Json
import HyperionNg.Types
import HyperionNg.Library.Packets

/-! The Adalight driver. Its header is made once; `write` puts the colours
behind it and hands the whole buffer to the serial port. -/

namespace HyperionNg

open Library

structure LedDeviceAdalight where
  ledCount : Nat
  ligthBerryAPA102Mode : Bool
  ledBuffer : List UInt8

namespace LedDeviceAdalight

def headerSize : Nat := 6

/-- `_ledBuffer[0]` to `_ledBuffer[5]`. -/
def header (totalLedCount : Nat) : List UInt8 :=
  let high := UInt8.ofNat (totalLedCount / 256)
  let low := UInt8.ofNat totalLedCount
  [65, 100, 97, high, low, high ^^^ low ^^^ 0x55]

/-- The start frame, the LEDs with their first bytes, and the end frame. -/
def apa102 (ledCount : Nat) : List UInt8 :=
  let startFrameSize := 4
  let endFrameSize := max ((ledCount + 15) / 16) 4
  List.replicate startFrameSize 0 ++ (List.replicate ledCount [0xFF, 0, 0, 0]).flatten ++
    List.replicate endFrameSize 0

/-- `totalLedCount` is an `unsigned int`: without any LED it wraps around. -/
def init (ledCount : Nat) (deviceConfig : QJsonObject) : LedDeviceAdalight :=
  if ((deviceConfig.value "lightberry_apa102_mode").getD .null).toBool false then
    ⟨ledCount, true, header ledCount ++ apa102 ledCount⟩
  else
    let totalLedCount := (ledCount + 2 ^ 32 - 1) % 2 ^ 32
    ⟨ledCount, false, header totalLedCount ++ List.replicate (3 * ledCount) 0⟩

/-- `memcpy` behind the header. -/
def memcpy (ledBuffer bytes : List UInt8) : Except Fault (List UInt8) :=
  if headerSize + bytes.length ≤ ledBuffer.length then
    .ok (ledBuffer.take headerSize ++ Packets.overwrite bytes (ledBuffer.drop headerSize))
  else .error .undefinedBehaviour

/-- `_ledBuffer[i] = value` -/
def assign (ledBuffer : List UInt8) (i : Nat) (value : UInt8) : Except Fault (List UInt8) :=
  if i < ledBuffer.length then .ok (ledBuffer.set i value) else .error .undefinedBehaviour

def writeLed (ledValues : List ColorRgb) (ledBuffer : List UInt8) (iLed : Nat) :
    Except Fault (List UInt8) :=
  match ledValues[iLed - 1]? with
  | none => .error .undefinedBehaviour
  | some rgb => do
    let ledBuffer ← assign ledBuffer (iLed * 4 + 7) rgb.red
    let ledBuffer ← assign ledBuffer (iLed * 4 + 8) rgb.green
    assign ledBuffer (iLed * 4 + 9) rgb.blue

/-- The buffer that is handed to `writeBytes`. -/
def write (d : LedDeviceAdalight) (ledValues : List ColorRgb) :
    Except Fault LedDeviceAdalight := do
  let ledBuffer ←
    if d.ligthBerryAPA102Mode then
      (List.range' 1 d.ledCount).foldlM (writeLed ledValues) d.ledBuffer
    else memcpy d.ledBuffer (rawdata ledValues)
  .ok { d with ledBuffer }

def message (ledValues : List ColorRgb) : List UInt8 :=
  header (ledValues.length - 1) ++ rawdata ledValues

@[simp] theorem length_header (totalLedCount : Nat) : (header totalLedCount).length = headerSize :=
  rfl

@[simp] theorem length_message (ledValues : List ColorRgb) :
    (message ledValues).length = headerSize + 3 * ledValues.length := by
  rw [message, List.length_append, length_header, rawdata_length]

structure Made (ledCount : Nat) (d : LedDeviceAdalight) : Prop where
  mode : d.ligthBerryAPA102Mode = false
  made : d.ledBuffer.take headerSize = header (ledCount - 1)
  length : d.ledBuffer.length = headerSize + 3 * ledCount

theorem made_init {ledCount : Nat} (some : 1 ≤ ledCount) (few : ledCount < 2 ^ 32)
    {deviceConfig : QJsonObject}
    (plain : ((deviceConfig.value "lightberry_apa102_mode").getD .null).toBool false = false) :
    Made ledCount (init ledCount deviceConfig) := by
  have total : (ledCount + 2 ^ 32 - 1) % 2 ^ 32 = ledCount - 1 := by omega
  rw [init, if_neg (by simp [plain]), total]
  refine ⟨rfl, List.take_left' (length_header _), ?_⟩
  rw [List.length_append, length_header, List.length_replicate]

theorem Made.write_eq {ledCount : Nat} {d : LedDeviceAdalight} (made : Made ledCount d)
    (ledValues : List ColorRgb) :
    d.write ledValues = (memcpy d.ledBuffer (rawdata ledValues)).map fun ledBuffer =>
      { d with ledBuffer } := by
  rw [write, if_neg (by simp [made.mode])]
  cases memcpy d.ledBuffer (rawdata ledValues) <;> rfl

theorem Made.write {ledCount : Nat} {d : LedDeviceAdalight} (made : Made ledCount d)
    {ledValues : List ColorRgb} (all : ledValues.length = ledCount) :
    d.write ledValues = .ok { d with ledBuffer := message ledValues } := by
  have behind : (d.ledBuffer.drop headerSize).length = (rawdata ledValues).length := by
    rw [List.length_drop, made.length, rawdata_length, all]
    omega
  have none : (d.ledBuffer.drop headerSize).drop (rawdata ledValues).length = [] := by
    rw [← behind, List.drop_length]
  rw [made.write_eq, memcpy, if_pos, made.made, Packets.overwrite, none, List.append_nil, message,
    all]
  · rfl
  · rw [made.length, rawdata_length, all]

theorem Made.kept {ledCount : Nat} {d e : LedDeviceAdalight} (made : Made ledCount d)
    {ledValues : List ColorRgb} (written : d.write ledValues = .ok e) : Made ledCount e := by
  rw [made.write_eq, memcpy] at written
  split_ifs at written with fits
  swap
  · exact absurd written nofun
  obtain rfl := Except.ok.inj written
  have front : (d.ledBuffer.take headerSize).length = headerSize := by
    rw [List.length_take, made.length]
    omega
  refine ⟨made.mode, ?_, ?_⟩
  · rw [List.take_left' front, made.made]
  · have inside : (rawdata ledValues).length ≤ (d.ledBuffer.drop headerSize).length := by
      rw [List.length_drop]
      omega
    rw [List.length_append, front, Packets.overwrite_length inside, List.length_drop, made.length]
    omega

/-! The LightBerry mode, where the colours go between the start and the end
frame, each behind the first byte of its LED. -/

def led (color : ColorRgb) : List UInt8 := [0xFF, color.red, color.green, color.blue]

theorem length_flatMap_led (ledValues : List ColorRgb) :
    (ledValues.flatMap led).length = 4 * ledValues.length := by
  induction ledValues with
  | nil => rfl
  | cons color rest ih =>
    rw [List.flatMap_cons, List.length_append, ih, List.length_cons]
    simp only [led, List.length_cons, List.length_nil]
    omega

def front102 (ledCount : Nat) : List UInt8 := header ledCount ++ List.replicate 4 0

def endFrame (ledCount : Nat) : List UInt8 := List.replicate (max ((ledCount + 15) / 16) 4) 0

def message102 (ledValues : List ColorRgb) : List UInt8 :=
  front102 ledValues.length ++ (ledValues.flatMap led ++ endFrame ledValues.length)

structure Made102 (ledCount : Nat) (d : LedDeviceAdalight) : Prop where
  mode : d.ligthBerryAPA102Mode = true
  count : d.ledCount = ledCount
  made : ∃ last, last.length = ledCount ∧ d.ledBuffer = message102 last

theorem assign_append (front : List UInt8) {rest : List UInt8} {k : Nat} (inside : k < rest.length)
    (value : UInt8) :
    assign (front ++ rest) (front.length + k) value = .ok (front ++ rest.set k value) := by
  rw [assign, if_pos (by rw [List.length_append]; omega),
    List.set_append_right _ _ (Nat.le_add_right _ _), Nat.add_sub_cancel_left]

theorem writeLed_eq {front : List UInt8} {iLed : Nat} (place : front.length = iLed * 4 + 6)
    {ledValues : List ColorRgb} {color : ColorRgb} (given : ledValues[iLed - 1]? = some color)
    (last : ColorRgb) (back : List UInt8) :
    writeLed ledValues (front ++ (led last ++ back)) iLed = .ok (front ++ (led color ++ back)) := by
  have first := assign_append front (show 1 < (led last ++ back).length by simp [led]) color.red
  have second := assign_append front (show 2 < ((led last ++ back).set 1 color.red).length by
    simp [led]) color.green
  have third := assign_append front (show 3 < (((led last ++ back).set 1 color.red).set 2
    color.green).length by simp [led]) color.blue
  rw [place] at first second third
  rw [writeLed, given]
  change (assign _ (iLed * 4 + 6 + 1) _ >>= fun ledBuffer =>
    assign ledBuffer (iLed * 4 + 6 + 2) _ >>= fun ledBuffer =>
    assign ledBuffer (iLed * 4 + 6 + 3) _) = _
  rw [first]
  change (assign _ (iLed * 4 + 6 + 2) _ >>= fun ledBuffer =>
    assign ledBuffer (iLed * 4 + 6 + 3) _) = _
  rw [second]
  exact third

theorem writeLeds_eq {front back : List UInt8} (place : front.length = 10)
    {done ledValues last : List ColorRgb} (same : last.length = ledValues.length) :
    (List.range' (done.length + 1) ledValues.length).foldlM (writeLed (done ++ ledValues))
        (front ++ done.flatMap led ++ (last.flatMap led ++ back)) =
      .ok (front ++ (done ++ ledValues).flatMap led ++ back) := by
  induction ledValues generalizing done last with
  | nil =>
    obtain rfl := List.length_eq_zero_iff.mp same
    rw [List.append_nil]
    rfl
  | cons color rest ih =>
    obtain ⟨old, olds, rfl⟩ := List.exists_cons_of_length_eq_add_one same
    have here : (front ++ done.flatMap led).length = (done.length + 1) * 4 + 6 := by
      rw [List.length_append, length_flatMap_led, place]
      omega
    have given : (done ++ color :: rest)[done.length + 1 - 1]? = some color := by simp
    have step := writeLed_eq here given old (olds.flatMap led ++ back)
    have later := @ih (done ++ [color]) olds (by simpa using same)
    rw [List.length_append, List.length_singleton, List.append_assoc done] at later
    rw [List.length_cons, List.range'_succ, List.foldlM_cons, List.flatMap_cons,
      List.append_assoc (led old), step]
    have moved : front ++ done.flatMap led ++ (led color ++ (olds.flatMap led ++ back)) =
        front ++ (done ++ [color]).flatMap led ++ (olds.flatMap led ++ back) := by
      rw [List.flatMap_append, List.flatMap_singleton]
      simp only [List.append_assoc]
    rw [moved]
    exact later

theorem Made102.write {ledCount : Nat} {d : LedDeviceAdalight} (made : Made102 ledCount d)
    {ledValues : List ColorRgb} (all : ledValues.length = ledCount) :
    d.write ledValues = .ok { d with ledBuffer := message102 ledValues } := by
  obtain ⟨last, same, held⟩ := made.made
  have place : (front102 ledCount).length = 10 := rfl
  have written := @writeLeds_eq _ (endFrame ledCount) place [] ledValues last (same.trans all.symm)
  rw [List.nil_append, List.flatMap_nil, List.append_nil, all] at written
  rw [LedDeviceAdalight.write, if_pos made.mode, made.count, held, message102, same]
  change ((List.range' 1 ledCount).foldlM _ _ >>= _) = _
  rw [List.length_nil, zero_add] at written
  rw [written, message102, all, List.append_assoc]
  rfl

end LedDeviceAdalight

end HyperionNg
