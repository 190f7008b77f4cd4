import HyperionNg.Image
import HyperionNg.Json
import HyperionNg.Types
import HyperionNg.Library.Bytes
import HyperionNg.Library.Execution
import HyperionNg.Library.Packets

/-! The E1.31 driver. A frame's bytes are cut into packets of 512 slots, each
for the universe after the one before. A datagram counts as sent when it is
handed to the socket. -/

namespace HyperionNg

open Library Library.Execution

/-- A UUID, as `toRfc4122` gives it. -/
structure QUuid where
  toRfc4122 : List UInt8
  length : toRfc4122.length = 16

/-- `e131_packet_t`. The numbers are in host order here. -/
structure E131Packet where
  preambleSize : UInt16
  postambleSize : UInt16
  acnId : List UInt8
  rootFlength : UInt16
  rootVector : UInt32
  cid : List UInt8
  frameFlength : UInt16
  frameVector : UInt32
  sourceName : List UInt8
  priority : UInt8
  reserved : UInt16
  sequenceNumber : UInt8
  options : UInt8
  frameUniverse : UInt16
  dmpFlength : UInt16
  dmpVector : UInt8
  type : UInt8
  firstAddress : UInt16
  addressIncrement : UInt16
  propertyValueCount : UInt16
  propertyValues : List UInt8

namespace E131Packet

open Bytes

def zero : E131Packet :=
  ⟨0, 0, [], 0, 0, [], 0, 0, [], 0, 0, 0, 0, 0, 0, 0, 0, 0, 0, 0, []⟩

def layers (p : E131Packet) : List UInt8 :=
  bigEndian 2 p.preambleSize.toNat ++ (bigEndian 2 p.postambleSize.toNat ++ (p.acnId ++
    (bigEndian 2 p.rootFlength.toNat ++ (bigEndian 4 p.rootVector.toNat ++ (p.cid ++
    (bigEndian 2 p.frameFlength.toNat ++ (bigEndian 4 p.frameVector.toNat ++ (p.sourceName ++
    (bigEndian 1 p.priority.toNat ++ (bigEndian 2 p.reserved.toNat ++
    (bigEndian 1 p.sequenceNumber.toNat ++ (bigEndian 1 p.options.toNat ++
    (bigEndian 2 p.frameUniverse.toNat ++ (bigEndian 2 p.dmpFlength.toNat ++
    (bigEndian 1 p.dmpVector.toNat ++ (bigEndian 1 p.type.toNat ++
    (bigEndian 2 p.firstAddress.toNat ++ (bigEndian 2 p.addressIncrement.toNat ++
    bigEndian 2 p.propertyValueCount.toNat))))))))))))))))))

def raw (p : E131Packet) : List UInt8 := p.layers ++ p.propertyValues

section Layout

variable {p : E131Packet} (acnId : p.acnId.length = 12) (cid : p.cid.length = 16)
  (sourceName : p.sourceName.length = 64)
include acnId cid sourceName

theorem layers_length : p.layers.length = 125 := by
  simp [layers, acnId, cid, sourceName]

/-- The numbers at `E131_ROOT_FLENGTH`, `E131_FRAME_FLENGTH`, `E131_FRAME_SEQ`,
`E131_FRAME_UNIVERSE`, `E131_DMP_FLENGTH` and `E131_DMP_COUNT`. -/
theorem numberAt_layers (rest : List UInt8) :
    numberAt 16 2 (p.layers ++ rest) = p.rootFlength.toNat ∧
      numberAt 38 2 (p.layers ++ rest) = p.frameFlength.toNat ∧
      numberAt 111 1 (p.layers ++ rest) = p.sequenceNumber.toNat ∧
      numberAt 113 2 (p.layers ++ rest) = p.frameUniverse.toNat ∧
      numberAt 115 2 (p.layers ++ rest) = p.dmpFlength.toNat ∧
      numberAt 123 2 (p.layers ++ rest) = p.propertyValueCount.toNat := by
  have word (n : UInt16) : ofBigEndian (bigEndian 2 n.toNat) = n.toNat :=
    ofBigEndian_of_lt n.toNat_lt
  have byte (n : UInt8) : ofBigEndian (bigEndian 1 n.toNat) = n.toNat :=
    ofBigEndian_of_lt n.toNat_lt
  simp [layers, numberAt_skip, numberAt_zero, acnId, cid, sourceName, word, byte]

end Layout

end E131Packet

structure LedDeviceUdpE131 where
  e131Packet : E131Packet
  e131Seq : UInt8 := 0
  e131Universe : UInt8
  e131SourceName : List UInt8
  e131Cid : QUuid

namespace LedDeviceUdpE131

/-- The parts of Qt `init` uses: the host's name and the UUIDs. -/
structure Surroundings where
  localHostName : String
  createUuid : QUuid
  uuidOf : String → QUuid

def init (qt : Surroundings) (uninitialised : E131Packet) (deviceConfig : QJsonObject) :
    LedDeviceUdpE131 where
  e131Packet := uninitialised
  e131Universe := UInt8.ofInt (((deviceConfig.value "universe").getD .null).toInt 1)
  e131SourceName := (((deviceConfig.value "source-name").getD .null).toString
    ("hyperion on " ++ qt.localHostName)).toUTF8.toList
  e131Cid :=
    let jsonCid := ((deviceConfig.value "cid").getD .null).toString ""
    if jsonCid.isEmpty then qt.createUuid else qt.uuidOf jsonCid

def acnId : List UInt8 :=
  [0x41, 0x53, 0x43, 0x2d, 0x45, 0x31, 0x2e, 0x31, 0x37, 0x00, 0x00, 0x00]

/-- `snprintf(buffer, size, "%s", text)` into a buffer of zeros. -/
def snprintf (size : Nat) (text : List UInt8) : List UInt8 :=
  let written := (text.takeWhile (· ≠ 0)).take (size - 1)
  written ++ List.replicate (size - written.length) 0

def dmxMax : Nat := 512

def prepare (d : LedDeviceUdpE131) (thisUniverse thisDmxChannelCount : Nat) : E131Packet where
  preambleSize := 16
  postambleSize := 0
  acnId := acnId
  rootFlength := UInt16.ofNat (0x7000 ||| (110 + thisDmxChannelCount))
  rootVector := 0x00000004
  cid := d.e131Cid.toRfc4122
  frameFlength := UInt16.ofNat (0x7000 ||| (88 + thisDmxChannelCount))
  frameVector := 0x00000002
  sourceName := snprintf 64 d.e131SourceName
  priority := 100
  reserved := 0
  sequenceNumber := 0
  options := 0
  frameUniverse := UInt16.ofNat thisUniverse
  dmpFlength := UInt16.ofNat (0x7000 ||| (11 + thisDmxChannelCount))
  dmpVector := 0x02
  type := 0xa1
  firstAddress := 0
  addressIncrement := 1
  propertyValueCount := UInt16.ofNat (1 + thisDmxChannelCount)
  propertyValues := List.replicate 513 0

/-- The variables of the loop in `write`, and the datagrams sent so far. -/
structure Loop where
  packet : E131Packet
  thisChannelCount : Int
  sent : List (List UInt8)

def startPacket (d : LedDeviceUdpE131) (dmxChannelCount : Int) (s : Loop) (rawIdx : Nat) : Loop :=
  let thisChannelCount :=
    if dmxChannelCount - rawIdx < dmxMax then dmxChannelCount.tmod dmxMax else dmxMax
  { s with
    thisChannelCount
    packet := { prepare d (d.e131Universe.toNat + rawIdx / dmxMax) (unsigned thisChannelCount) with
      sequenceNumber := d.e131Seq } }

/-- `property_values[1 + rawIdx%DMX_MAX] = rawdata[rawIdx]`, always one of the 513. -/
def putByte (raw : List UInt8) (s : Loop) (rawIdx : Nat) : Except Fault Loop :=
  match raw[rawIdx]? with
  | none => .error .undefinedBehaviour
  | some byte => .ok { s with packet := { s.packet with
      propertyValues := s.packet.propertyValues.set (1 + rawIdx % dmxMax) byte } }

/-- `writeBytes(E131_DMP_DATA + 1 + thisChannelCount, e131_packet.raw)` -/
def sendPacket (s : Loop) : Loop :=
  { s with sent := s.sent ++ [s.packet.raw.take (125 + 1 + s.thisChannelCount).toNat] }

def writeByte (d : LedDeviceUdpE131) (dmxChannelCount : Int) (raw : List UInt8) (s : Loop)
    (rawIdx : Nat) : Except Fault Loop := do
  let s := if rawIdx % dmxMax = 0 then startPacket d dmxChannelCount s rawIdx else s
  let s ← putByte raw s rawIdx
  if (rawIdx : Int) = dmxChannelCount - 1 ∨ rawIdx % dmxMax = dmxMax - 1 then pure (sendPacket s)
  else pure s

/-- `_ledRGBCount = _ledCount * sizeof(ColorRgb)` -/
def ledRGBCount (ledCount : Int) : Int := signed (3 * ledCount)

def write (ledCount : Int) (d : LedDeviceUdpE131) (ledValues : List ColorRgb) :
    Except Fault (LedDeviceUdpE131 × List (List UInt8)) := do
  let dmxChannelCount := ledRGBCount ledCount
  let d := { d with e131Seq := d.e131Seq + 1 }
  let s ← (List.range dmxChannelCount.toNat).foldlM
    (writeByte d dmxChannelCount (rawdata ledValues)) ⟨d.e131Packet, 0, []⟩
  pure ({ d with e131Packet := s.packet }, s.sent)

def writeFrames (ledCount : Int) : LedDeviceUdpE131 → List (List ColorRgb) →
    Except Fault (List (List (List UInt8)))
  | _, [] => .ok []
  | d, ledValues :: rest => do
    let (d, sent) ← write ledCount d ledValues
    let later ← writeFrames ledCount d rest
    pure (sent :: later)

structure LengthsAgree (datagram : List UInt8) : Prop where
  startCode : 126 ≤ datagram.length
  root : Bytes.numberAt 16 2 datagram = 0x7000 + (datagram.length - 16)
  frame : Bytes.numberAt 38 2 datagram = 0x7000 + (datagram.length - 38)
  dmp : Bytes.numberAt 115 2 datagram = 0x7000 + (datagram.length - 115)
  count : Bytes.numberAt 123 2 datagram = datagram.length - 125

def slots (datagram : List UInt8) : List UInt8 := datagram.drop 126

/-- The datagrams are one frame with this sequence number, for the universes
from `universe` on, and carry `rgb`. -/
structure Carries (first : Int) (seq : UInt8) (rgb : List UInt8) (sent : List (List UInt8)) :
    Prop where
  universes : ∀ k (h : k < sent.length), (Bytes.numberAt 113 2 sent[k] : Int) = first + k
  sequences : ∀ datagram ∈ sent, Bytes.numberAt 111 1 datagram = seq.toNat
  atMost : ∀ datagram ∈ sent, (slots datagram).length ≤ dmxMax
  full : ∀ k (h : k + 1 < sent.length), (slots sent[k]).length = dmxMax
  lengths : ∀ datagram ∈ sent, LengthsAgree datagram
  colours : sent.flatMap slots = rgb

/-- One frame after the other, with the sequence numbers from `seq` on. -/
def CarriesAll (first : Int) : UInt8 → List (List ColorRgb) → List (List (List UInt8)) → Prop
  | seq, ledValues :: frames, sent :: later =>
    Carries first seq (rawdata ledValues) sent ∧ CarriesAll first (seq + 1) frames later
  | _, [], [] => True
  | _, _, _ => False

/-- The datagram of universe `k` behind the first, with this payload. -/
def datagram (d : LedDeviceUdpE131) (k : Nat) (payload : List UInt8) : List UInt8 :=
  E131Packet.layers { prepare d (d.e131Universe.toNat + k) payload.length with
    sequenceNumber := d.e131Seq } ++ (0 :: payload)

private theorem snprintf_length {size : Nat} (positive : 0 < size) (text : List UInt8) :
    (snprintf size text).length = size := by
  simp only [snprintf, List.length_append, List.length_take, List.length_replicate]
  omega

theorem layers_length (d : LedDeviceUdpE131) (thisUniverse count : Nat) :
    (E131Packet.layers { prepare d thisUniverse count with
      sequenceNumber := d.e131Seq }).length = 125 :=
  E131Packet.layers_length rfl d.e131Cid.length (snprintf_length (by decide) _)

theorem datagram_fields (d : LedDeviceUdpE131) (k : Nat) {payload : List UInt8}
    (fits : payload.length ≤ dmxMax) :
    LengthsAgree (datagram d k payload) ∧ slots (datagram d k payload) = payload ∧
      Bytes.numberAt 111 1 (datagram d k payload) = d.e131Seq.toNat ∧
      Bytes.numberAt 113 2 (datagram d k payload) = (d.e131Universe.toNat + k) % 2 ^ 16 := by
  have front := layers_length d (d.e131Universe.toNat + k) payload.length
  have length : (datagram d k payload).length = 126 + payload.length := by
    rw [datagram, List.length_append, front, List.length_cons]
    omega
  obtain ⟨root, frame, seq, universe_, dmp, count⟩ := E131Packet.numberAt_layers
    (p := { prepare d (d.e131Universe.toNat + k) payload.length with sequenceNumber := d.e131Seq })
    rfl d.e131Cid.length (snprintf_length (by decide) _) (0 :: payload)
  have flags (n : Nat) (below : n < 2 ^ 12) : (UInt16.ofNat (0x7000 ||| n)).toNat = 0x7000 + n := by
    have sum : 0x7000 ||| n = 0x7000 + n := (Nat.two_pow_add_eq_or_of_lt below 7).symm
    rw [sum, UInt16.toNat_ofNat', Nat.mod_eq_of_lt (by omega)]
  have fits : payload.length ≤ 512 := fits
  refine ⟨⟨by omega, ?_, ?_, ?_, ?_⟩, ?_, seq, ?_⟩
  · rw [length, datagram, root, prepare, flags _ (by omega)]
    omega
  · rw [length, datagram, frame, prepare, flags _ (by omega)]
    omega
  · rw [length, datagram, dmp, prepare, flags _ (by omega)]
    omega
  · rw [length, datagram, count, prepare, UInt16.toNat_ofNat', Nat.mod_eq_of_lt (by omega)]
    omega
  · rw [slots, datagram, List.drop_append, front, List.drop_of_length_le (by omega)]
    rfl
  · rw [datagram, universe_, prepare, UInt16.toNat_ofNat']

section Frame

variable {d : LedDeviceUdpE131} {raw rgb : List UInt8}

theorem writeByte_eq (d : LedDeviceUdpE131) (total : Nat) (raw : List UInt8) :
    writeByte d total raw = Packets.body dmxMax total
      (fun s i => pure (startPacket d total s i)) (putByte raw)
      (fun s _ => pure (sendPacket s)) := by
  funext s i
  have last : ((i : Int) = (total : Int) - 1 ∨ i % dmxMax = dmxMax - 1) =
      (i + 1 = total ∨ i % dmxMax + 1 = dmxMax) := by
    rw [dmxMax, eq_iff_iff]
    omega
  simp only [writeByte, Packets.body, last]
  by_cases first : i % dmxMax = 0
  · rw [if_pos first, if_pos first, pure_bind]
  · rw [if_neg first, if_neg first, pure_bind]

def Loop.filled (s : Loop) (d : LedDeviceUdpE131) (k count : Nat) (payload : List UInt8) : Loop :=
  { s with
    thisChannelCount := count
    packet := { prepare d (d.e131Universe.toNat + k) count with
      sequenceNumber := d.e131Seq
      propertyValues := Packets.overwrite (0 :: payload) (List.replicate 513 0) } }

theorem startPacket_eq (s : Loop) {k : Nat} (inside : k * dmxMax < rgb.length) :
    startPacket d rgb.length s (k * dmxMax) =
      s.filled d k (Packets.chunk dmxMax rgb k).length [] := by
  have count : (if (rgb.length : Int) - ((k * dmxMax : Nat) : Int) < (dmxMax : Nat) then
      (rgb.length : Int).tmod (dmxMax : Nat) else (dmxMax : Nat)) =
        ((Packets.chunk dmxMax rgb k).length : Int) := by
    rw [← Int.ofNat_tmod, Packets.chunk_length]
    split_ifs with short
    · obtain ⟨rest, hrest⟩ := Nat.exists_eq_add_of_le inside.le
      rw [hrest, Nat.mul_add_mod_of_lt (by omega)]
      omega
    · omega
  have bound := Packets.chunk_length dmxMax rgb k
  have small : (Packets.chunk dmxMax rgb k).length < 2 ^ 32 := by
    have most : dmxMax = 512 := rfl
    omega
  rw [startPacket, count, unsigned_of_lt small, Nat.mul_div_cancel _ (by decide)]
  rfl

theorem putByte_eq (front : rgb <+: raw) (s : Loop) {k count j : Nat}
    (inside : j < (Packets.chunk dmxMax rgb k).length) :
    putByte raw (s.filled d k count ((Packets.chunk dmxMax rgb k).take j)) (k * dmxMax + j) =
      pure (s.filled d k count
        ((Packets.chunk dmxMax rgb k).take j ++ [(Packets.chunk dmxMax rgb k)[j]])) := by
  have bound := Packets.chunk_length dmxMax rgb k
  have residue : (k * dmxMax + j) % dmxMax = j := Nat.mul_add_mod_of_lt (by omega)
  have read : raw[k * dmxMax + j]? = some (Packets.chunk dmxMax rgb k)[j] := by
    have here : k * dmxMax + j < rgb.length := by omega
    have there := front.length_le
    rw [List.getElem?_eq_getElem (by omega), ← front.getElem here, Option.some.injEq]
    simp [Packets.chunk]
  have position : 1 + j = (0 :: (Packets.chunk dmxMax rgb k).take j).length := by
    rw [List.length_cons, List.length_take]
    omega
  have room : (0 :: (Packets.chunk dmxMax rgb k).take j).length <
      (List.replicate 513 (0 : UInt8)).length := by
    have most : dmxMax = 512 := rfl
    rw [← position, List.length_replicate]
    omega
  rw [putByte, read, residue, Loop.filled]
  simp only [position, Packets.overwrite_set room]
  rfl

theorem sendPacket_eq (s : Loop) (k : Nat) (payload : List UInt8) :
    sendPacket (s.filled d k payload.length payload) =
      { s.filled d k payload.length payload with sent := s.sent ++ [datagram d k payload] } := by
  have front := layers_length d (d.e131Universe.toNat + k) payload.length
  have size : (125 + 1 + (s.filled d k payload.length payload).thisChannelCount).toNat =
      (datagram d k payload).length := by
    rw [datagram, List.length_append, front, List.length_cons]
    change ((125 : Int) + 1 + payload.length).toNat = _
    omega
  have raw_eq : (s.filled d k payload.length payload).packet.raw =
      datagram d k payload ++ (List.replicate 513 0).drop (payload.length + 1) := by
    rw [datagram, List.append_assoc]
    rfl
  rw [sendPacket, raw_eq, size, List.take_left]
  rfl

theorem packet_eq (front : rgb <+: raw) (s : Loop) {k : Nat} (inside : k * dmxMax < rgb.length) :
    ∃ t, Packets.packet dmxMax rgb.length (fun s i => pure (startPacket d rgb.length s i))
        (putByte raw) (fun s _ => pure (sendPacket s)) s k = pure t ∧
      t.sent = s.sent ++ [datagram d k (Packets.chunk dmxMax rgb k)] := by
  have started := startPacket_eq (d := d) s inside
  refine ⟨_, Packets.packet_eq (s.filled d k (Packets.chunk dmxMax rgb k).length)
    (congrArg pure started) fun j inside => putByte_eq front s inside, ?_⟩
  rw [sendPacket_eq]

theorem write_eq {ledCount : Int} {ledValues : List ColorRgb}
    (front : rgb <+: rawdata ledValues) (count : (ledRGBCount ledCount).toNat = rgb.length) :
    ∃ e131Packet, write ledCount d ledValues =
      .ok ({ d with e131Packet, e131Seq := d.e131Seq + 1 },
        (List.range (Packets.count dmxMax rgb.length)).map fun k =>
          datagram { d with e131Seq := d.e131Seq + 1 } k (Packets.chunk dmxMax rgb k)) := by
  obtain ⟨t, run, sent⟩ := Packets.foldlM_range_invariant
    (s := (⟨d.e131Packet, 0, []⟩ : Loop)) (n := Packets.count dmxMax rgb.length)
    (f := Packets.packet dmxMax rgb.length
      (fun s i => pure (startPacket { d with e131Seq := d.e131Seq + 1 } rgb.length s i))
      (putByte (rawdata ledValues)) (fun s _ => pure (sendPacket s)))
    (P := fun k (t : Loop) => t.sent = (List.range k).map fun k =>
      datagram { d with e131Seq := d.e131Seq + 1 } k (Packets.chunk dmxMax rgb k))
    rfl fun k hk t sent => by
      obtain ⟨u, next, added⟩ := packet_eq (d := { d with e131Seq := d.e131Seq + 1 }) front t
        ((Packets.lt_count_iff (by decide)).mp hk)
      refine ⟨u, next, ?_⟩
      rw [added, sent, List.range_succ, List.map_append, List.map_singleton]
  rw [← Packets.foldlM_range (by decide), ← writeByte_eq] at run
  have looped : (List.range rgb.length).foldlM (writeByte { d with e131Seq := d.e131Seq + 1 }
      (ledRGBCount ledCount) (rawdata ledValues)) ⟨d.e131Packet, 0, []⟩ = .ok t := by
    by_cases none : rgb.length = 0
    · rw [none] at run ⊢
      exact run
    · have same : ledRGBCount ledCount = rgb.length := by omega
      rw [same]
      exact run
  refine ⟨t.packet, ?_⟩
  rw [write, count, looped, ok_bind, sent]
  rfl

theorem carries_iff {first : Int} {seq : UInt8} {whole : List UInt8} (some : whole ≠ []) :
    Carries first seq whole ((List.range (Packets.count dmxMax rgb.length)).map fun k =>
        datagram d k (Packets.chunk dmxMax rgb k)) ↔
      rgb = whole ∧ seq = d.e131Seq ∧ first = d.e131Universe.toNat ∧
        first + Packets.count dmxMax whole.length ≤ 2 ^ 16 := by
  have fits (k : Nat) : (Packets.chunk dmxMax rgb k).length ≤ dmxMax := by
    rw [Packets.chunk_length]
    omega
  have colours : ((List.range (Packets.count dmxMax rgb.length)).map fun k =>
      datagram d k (Packets.chunk dmxMax rgb k)).flatMap slots = rgb := by
    rw [List.flatMap_map, funext fun k => (datagram_fields d k (fits k)).2.1]
    exact Packets.flatMap_chunk (by decide) rgb
  constructor
  · intro carries
    obtain rfl := colours.symm.trans carries.colours
    have many := Packets.count_pos (show 0 < dmxMax by decide) (List.length_pos_of_ne_nil some)
    have byte := d.e131Universe.toNat_lt
    have universes : ∀ k < Packets.count dmxMax rgb.length,
        (((d.e131Universe.toNat + k) % 2 ^ 16 : Nat) : Int) = first + k := by
      intro k hk
      rw [← (datagram_fields d k (fits k)).2.2.2,
        ← carries.universes k (by rwa [List.length_map, List.length_range])]
      simp only [List.getElem_map, List.getElem_range]
    have lowest := universes 0 many
    have highest := universes (Packets.count dmxMax rgb.length - 1) (by omega)
    have sequence := carries.sequences _
      (List.mem_map.mpr ⟨0, List.mem_range.mpr many, rfl⟩)
    rw [(datagram_fields d 0 (fits 0)).2.2.1] at sequence
    exact ⟨rfl, UInt8.toNat.inj sequence.symm, by omega, by omega⟩
  · rintro ⟨rfl, rfl, rfl, below⟩
    refine ⟨?_, ?_, ?_, ?_, ?_, colours⟩
    · intro k hk
      rw [List.length_map, List.length_range] at hk
      simp only [List.getElem_map, List.getElem_range, (datagram_fields d k (fits k)).2.2.2]
      omega
    · simp only [List.mem_map]
      rintro _ ⟨k, _, rfl⟩
      exact (datagram_fields d k (fits k)).2.2.1
    · simp only [List.mem_map]
      rintro _ ⟨k, _, rfl⟩
      rw [(datagram_fields d k (fits k)).2.1]
      exact fits k
    · intro k hk
      rw [List.length_map, List.length_range, Packets.lt_count_iff (by decide)] at hk
      simp only [List.getElem_map, List.getElem_range, (datagram_fields d k (fits k)).2.1,
        Packets.chunk_length]
      have : (k + 1) * dmxMax = k * dmxMax + dmxMax := Nat.succ_mul k dmxMax
      omega
    · simp only [List.mem_map]
      rintro _ ⟨k, _, rfl⟩
      exact (datagram_fields d k (fits k)).1

end Frame

theorem ledRGBCount_of_lt {n : Nat} (fits : 3 * n < 2 ^ 31) : ledRGBCount n = (3 * n : Nat) := by
  rw [ledRGBCount, signed]
  exact Int.bmod_eq_of_le (by omega) (by omega)

private theorem ledRGBCount_lt (ledCount : Int) : ledRGBCount ledCount < 2 ^ 31 :=
  Int.bmod_lt (by decide)

theorem ledRGBCount_toNat {n bytes : Nat} (length : 3 * n = bytes) :
    (ledRGBCount n).toNat ≤ bytes ∧ (bytes < 2 ^ 31 → (ledRGBCount n).toNat = bytes) := by
  have below := ledRGBCount_lt n
  by_cases fits : 3 * n < 2 ^ 31
  · rw [ledRGBCount_of_lt fits]
    omega
  · omega

theorem init_universe {qt : Surroundings} {uninitialised : E131Packet}
    {deviceConfig : QJsonObject} {first : Int}
    (configured : deviceConfig.value "universe" = some (.double first)) (low : 0 ≤ first)
    (high : first ≤ 255) : first = (init qt uninitialised deviceConfig).e131Universe.toNat := by
  obtain ⟨byte, rfl⟩ := Int.eq_ofNat_of_zero_le low
  have configured : deviceConfig.value "universe" = some (.double ((byte : Int) : ℚ)) := configured
  have kept : (byte : Int) % 2 ^ 8 = byte := Int.emod_eq_of_lt low (by omega)
  rw [init, configured, Option.getD_some, Json.toInt_intCast (by omega) (by omega), UInt8.ofInt,
    kept, Int.toNat_natCast, UInt8.toNat_ofNat', Nat.mod_eq_of_lt (by omega)]

theorem universe_of_carries {d : LedDeviceUdpE131} {first : Int} {seq : UInt8} {n : Nat}
    (positive : 0 < n) {ledValues : List ColorRgb} (length : ledValues.length = n)
    {rest : List (List ColorRgb)} {sent : List (List (List UInt8))}
    (ok : writeFrames n d (ledValues :: rest) = .ok sent)
    (carries : CarriesAll first seq (ledValues :: rest) sent) :
    first = d.e131Universe.toNat ∧ first + Packets.count dmxMax (3 * n) ≤ 2 ^ 16 := by
  have bytes : 3 * n = (rawdata ledValues).length := by rw [rawdata_length, length]
  have some : rawdata ledValues ≠ [] := by
    rw [← List.length_pos_iff]
    omega
  have count := (ledRGBCount_toNat bytes).1
  obtain ⟨⟨d', now⟩, written, ok⟩ := bind_eq_ok.mp ok
  obtain ⟨later, _, ok⟩ := bind_eq_ok.mp ok
  obtain rfl := pure_eq_ok.mp ok
  obtain ⟨e131Packet, written_eq⟩ := write_eq (d := d)
    (List.take_prefix (ledRGBCount n).toNat (rawdata ledValues))
    (by rw [List.length_take, min_eq_left count])
  rw [written] at written_eq
  obtain ⟨rfl, rfl⟩ := Prod.mk.inj (Except.ok.inj written_eq)
  obtain ⟨_, _, universe_, below⟩ := (carries_iff some).mp carries.1
  rw [bytes]
  exact ⟨universe_, below⟩

theorem writeFrames_cons {ledCount : Int} {d d' : LedDeviceUdpE131} {ledValues : List ColorRgb}
    {rest : List (List ColorRgb)} {now : List (List UInt8)} {later : List (List (List UInt8))}
    (written : write ledCount d ledValues = .ok (d', now))
    (run : writeFrames ledCount d' rest = .ok later) :
    writeFrames ledCount d (ledValues :: rest) = .ok (now :: later) := by
  rw [writeFrames, written, ok_bind]
  simp only [run, ok_bind]
  rfl

theorem writeFrames_carry {d : LedDeviceUdpE131} {first : Int} {n : Nat}
    (universe_ : first = d.e131Universe.toNat)
    (below : first + Packets.count dmxMax (3 * n) ≤ 2 ^ 16) {frames : List (List ColorRgb)}
    (nonempty : ∀ ledValues ∈ frames, ledValues ≠ [])
    (lengths : ∀ ledValues ∈ frames, ledValues.length = n) :
    ∃ sent, writeFrames n d frames = .ok sent ∧
      CarriesAll first (d.e131Seq + 1) frames sent := by
  induction frames generalizing d with
  | nil => exact ⟨[], rfl, trivial⟩
  | cons ledValues rest ih =>
    have bytes : 3 * n = (rawdata ledValues).length := by
      rw [rawdata_length, lengths ledValues (by simp)]
    have small : (rawdata ledValues).length < 2 ^ 31 := by
      have enough := Packets.le_count_mul (show 0 < dmxMax by decide) (3 * n)
      have few := Nat.mul_le_mul_right dmxMax
        (show Packets.count dmxMax (3 * n) ≤ 2 ^ 16 by omega)
      have most : dmxMax = 512 := rfl
      omega
    obtain ⟨e131Packet, written⟩ := write_eq (d := d)
      (List.prefix_refl (rawdata ledValues)) ((ledRGBCount_toNat bytes).2 small)
    obtain ⟨later, run, carries⟩ := ih (d := { d with e131Packet, e131Seq := d.e131Seq + 1 })
      universe_ (fun f hf => nonempty f (by simp [hf])) fun f hf => lengths f (by simp [hf])
    rw [bytes] at below
    have whole := (carries_iff (d := { d with e131Seq := d.e131Seq + 1 })
      (rawdata_ne_nil (nonempty ledValues (by simp)))).mpr ⟨rfl, rfl, universe_, below⟩
    exact ⟨_ :: later, writeFrames_cons written run, whole, carries⟩

/-- Frames arrive whole exactly when the universe is a byte and the last one
fits its field. -/
theorem writeFrames_carry_iff (qt : Surroundings) (uninitialised : E131Packet)
    {deviceConfig : QJsonObject} {first : Int}
    (configured : deviceConfig.value "universe" = some (.double first)) {n : Nat}
    (positive : 0 < n) {frames : List (List ColorRgb)} (some : frames ≠ [])
    (lengths : ∀ ledValues ∈ frames, ledValues.length = n) :
    (∃ sent, writeFrames n (init qt uninitialised deviceConfig) frames = .ok sent ∧
        ∃ seq, CarriesAll first seq frames sent) ↔
      0 ≤ first ∧ first ≤ 255 ∧ first + Packets.count dmxMax (3 * n) ≤ 2 ^ 16 := by
  have nonempty : ∀ ledValues ∈ frames, ledValues ≠ [] := by
    intro ledValues mem
    rw [← List.length_pos_iff, lengths ledValues mem]
    exact positive
  constructor
  · rintro ⟨sent, ok, seq, carries⟩
    obtain ⟨ledValues, rest, rfl⟩ := List.exists_cons_of_ne_nil some
    obtain ⟨universe_, below⟩ :=
      universe_of_carries positive (lengths ledValues (by simp)) ok carries
    have byte := (init qt uninitialised deviceConfig).e131Universe.toNat_lt
    exact ⟨by omega, by omega, below⟩
  · rintro ⟨low, high, below⟩
    obtain ⟨sent, ok, carries⟩ := writeFrames_carry (d := init qt uninitialised deviceConfig)
      (init_universe configured low high) below nonempty lengths
    exact ⟨sent, ok, _, carries⟩

def Surroundings.nameless : Surroundings where
  localHostName := ""
  createUuid := ⟨List.replicate 16 0, rfl⟩
  uuidOf _ := ⟨List.replicate 16 0, rfl⟩

theorem writeFrames_carry_two_frames :
    let frames : List (List ColorRgb) := [.replicate 171 ⟨1, 2, 3⟩, .replicate 171 ⟨4, 5, 6⟩]
    ∃ sent, writeFrames 171 (init .nameless .zero [("universe", .double 7)]) frames = .ok sent ∧
      ∃ seq, CarriesAll 7 seq frames sent := by
  intro frames
  have lengths : ∀ ledValues ∈ frames, ledValues.length = 171 := by
    rw [List.forall_mem_cons, List.forall_mem_singleton]
    exact ⟨List.length_replicate, List.length_replicate⟩
  exact (writeFrames_carry_iff .nameless .zero rfl (by decide) (List.cons_ne_nil _ _) lengths).mpr
    (by decide)

/-- Universe 256 is stored in a byte: the datagram is for universe 0. -/
theorem universe_256_sent_to_0 :
    ¬ ∃ sent, writeFrames 1 (init .nameless .zero [("universe", .double 256)]) [[⟨1, 2, 3⟩]] =
        .ok sent ∧ ∃ seq, CarriesAll 256 seq [[⟨1, 2, 3⟩]] sent := by
  rintro ⟨sent, ok, seq, carries⟩
  have same := (universe_of_carries (n := 1) (by decide) rfl ok carries).1
  have byte := (init .nameless .zero [("universe", .double 256)]).e131Universe.toNat_lt
  omega

end LedDeviceUdpE131

end HyperionNg
