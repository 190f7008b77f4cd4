import HyperionNg.Json
import HyperionNg.Types
import HyperionNg.Library.Execution
import HyperionNg.Library.Packets

/-! The tpm2.net driver. `init` fixes the number of packets it will announce,
`write` cuts the frame's bytes into packets of `max-packet` of them. A datagram
counts as sent when it is handed to the socket. -/

namespace HyperionNg

structure LedDeviceTpm2net where
  tpm2Max : Int
  tpm2ByteCount : Int
  tpm2TotalPackets : Int

namespace LedDeviceTpm2net

open Library Library.Execution

/-- The result of an `int` operation, which has none outside the type. -/
def int (n : Int) : Except Fault Int :=
  if -2 ^ 31 ≤ n ∧ n < 2 ^ 31 then .ok n else .error .undefinedBehaviour

/-- `deviceConfig["max-packet"].toInt(170)` -/
def maxPacket (deviceConfig : QJsonObject) : Int :=
  ((deviceConfig.value "max-packet").getD .null).toInt 170

def init (ledCount : Int) (deviceConfig : QJsonObject) : Except Fault LedDeviceTpm2net := do
  let tpm2Max := maxPacket deviceConfig
  let tpm2ByteCount ← int (3 * ledCount)
  if tpm2Max = 0 then .error .undefinedBehaviour
  else .ok { tpm2Max, tpm2ByteCount, tpm2TotalPackets := 1 + tpm2ByteCount.tdiv tpm2Max }

/-- The variables of the loop in `write`, and the datagrams sent so far. -/
structure Loop where
  tpm2Buffer : List UInt8
  thisPacketBytes : Int
  tpm2ThisPacket : Int
  sent : List (List UInt8)

/-- `malloc(_tpm2_max + 7)`: no memory for a negative number of bytes. -/
def malloc (memory : Nat → UInt8) (size : Int) : List UInt8 := (List.range size.toNat).map memory

/-- `tpm2_buffer[i] = value` -/
def assign (tpm2Buffer : List UInt8) (i : Nat) (value : UInt8) : Except Fault (List UInt8) :=
  if i < tpm2Buffer.length then .ok (tpm2Buffer.set i value) else .error .undefinedBehaviour

/-- `ProviderUdp::writeBytes` -/
def writeBytes (s : Loop) (size : Int) : Except Fault Loop :=
  if 0 ≤ size ∧ size ≤ s.tpm2Buffer.length then
    .ok { s with sent := s.sent ++ [s.tpm2Buffer.take size.toNat] }
  else .error .undefinedBehaviour

def startPacket (d : LedDeviceTpm2net) (s : Loop) (rawIdx : Nat) : Except Fault Loop := do
  let thisPacketBytes :=
    if d.tpm2ByteCount - rawIdx < d.tpm2Max then d.tpm2ByteCount.tmod d.tpm2Max else d.tpm2Max
  let tpm2Buffer ← assign s.tpm2Buffer 0 0x9c
  let tpm2Buffer ← assign tpm2Buffer 1 0xda
  let tpm2Buffer ← assign tpm2Buffer 2 (UInt8.ofInt (thisPacketBytes >>> (8 : Nat)))
  let tpm2Buffer ← assign tpm2Buffer 3 (UInt8.ofInt thisPacketBytes)
  let tpm2Buffer ← assign tpm2Buffer 4 (UInt8.ofInt s.tpm2ThisPacket)
  let tpm2Buffer ← assign tpm2Buffer 5 (UInt8.ofInt d.tpm2TotalPackets)
  pure { s with tpm2Buffer, thisPacketBytes, tpm2ThisPacket := s.tpm2ThisPacket + 1 }

/-- `tpm2_buffer[6 + rawIdx % _tpm2_max] = rawdata[rawIdx]` -/
def putByte (d : LedDeviceTpm2net) (rawdata : List UInt8) (s : Loop) (rawIdx : Nat) :
    Except Fault Loop :=
  match rawdata[rawIdx]? with
  | none => .error .undefinedBehaviour
  | some byte => do
    let tpm2Buffer ← assign s.tpm2Buffer (6 + (rawIdx : Int).tmod d.tpm2Max).toNat byte
    pure { s with tpm2Buffer }

def sendPacket (d : LedDeviceTpm2net) (s : Loop) (rawIdx : Nat) : Except Fault Loop := do
  let tpm2Buffer ← assign s.tpm2Buffer (6 + (rawIdx : Int).tmod d.tpm2Max + 1).toNat 0x36
  writeBytes { s with tpm2Buffer } (s.thisPacketBytes + 7)

def writeByte (d : LedDeviceTpm2net) (rawdata : List UInt8) (s : Loop) (rawIdx : Nat) :
    Except Fault Loop := do
  let s ← if (rawIdx : Int).tmod d.tpm2Max = 0 then startPacket d s rawIdx else pure s
  let s ← putByte d rawdata s rawIdx
  if (rawIdx : Int) = d.tpm2ByteCount - 1 ∨ (rawIdx : Int).tmod d.tpm2Max = d.tpm2Max - 1 then
    sendPacket d s rawIdx
  else pure s

def write (memory : Nat → UInt8) (d : LedDeviceTpm2net) (ledValues : List ColorRgb) :
    Except Fault (List (List UInt8)) := do
  let size ← int (d.tpm2Max + 7)
  let s ← (List.range d.tpm2ByteCount.toNat).foldlM (writeByte d (rawdata ledValues))
    { tpm2Buffer := malloc memory size, thisPacketBytes := 0, tpm2ThisPacket := 1, sent := [] }
  pure s.sent

/-- A driver initialised for as many LEDs as the frame has colours. -/
def writeFrame (memory : Nat → UInt8) (deviceConfig : QJsonObject) (ledValues : List ColorRgb) :
    Except Fault (List (List UInt8)) := do
  let d ← init ledValues.length deviceConfig
  write memory d ledValues

structure Packet where
  size : Nat
  number : Nat
  total : Nat
  payload : List UInt8
deriving DecidableEq

def Packet.parse : List UInt8 → Option Packet
  | 0x9c :: 0xda :: high :: low :: number :: total :: rest =>
    if rest.getLast? = some 0x36 then
      some ⟨256 * high.toNat + low.toNat, number.toNat, total.toNat, rest.dropLast⟩
    else none
  | _ => none

/-- The datagrams are one frame: numbered from 1 to their count, which all of
them announce, with the size of what they carry, and carrying `rgb`. -/
def Carries (max : Int) (rgb : List UInt8) (sent : List (List UInt8)) : Prop :=
  ∃ packets : List Packet, sent.map Packet.parse = packets.map some ∧
    packets.map Packet.number = (List.range packets.length).map (1 + ·) ∧
    (∀ packet ∈ packets, packet.total = packets.length ∧ packet.size = packet.payload.length ∧
      packet.payload.length ≤ max) ∧
    packets.flatMap Packet.payload = rgb

theorem int_eq_ok {n m : Int} : int n = .ok m ↔ (-2 ^ 31 ≤ n ∧ n < 2 ^ 31) ∧ n = m := by
  unfold int
  by_cases h : -2 ^ 31 ≤ n ∧ n < 2 ^ 31
  · rw [if_pos h, Except.ok.injEq, and_iff_right h]
  · rw [if_neg h]
    exact iff_of_false nofun fun ⟨inside, _⟩ => h inside

theorem ofInt_natCast (n : Nat) : UInt8.ofInt n = UInt8.ofNat n := by
  have reduced : ((n : Int) % 2 ^ 8).toNat = n % 2 ^ 8 := by omega
  rw [UInt8.ofInt, reduced]
  exact UInt8.ofNat_mod_size

theorem natCast_tmod (i max : Nat) : (i : Int).tmod max = ((i % max : Nat) : Int) :=
  (Int.ofNat_tmod i max).symm

private theorem assign_overwrite {values tpm2Buffer : List UInt8}
    (fits : values.length < tpm2Buffer.length) (value : UInt8) :
    assign (Packets.overwrite values tpm2Buffer) values.length value =
      .ok (Packets.overwrite (values ++ [value]) tpm2Buffer) := by
  rw [assign, Packets.overwrite_length fits.le, if_pos fits, Packets.overwrite_set fits]

def Loop.holding (s : Loop) (bytes memory : List UInt8) : Loop :=
  { s with tpm2Buffer := Packets.overwrite bytes memory }

def header (d : LedDeviceTpm2net) (number : Int) (size : Nat) : List UInt8 :=
  [0x9c, 0xda, UInt8.ofNat (size / 256), UInt8.ofNat size, UInt8.ofInt number,
    UInt8.ofInt d.tpm2TotalPackets]

def datagram (d : LedDeviceTpm2net) (number : Int) (payload : List UInt8) : List UInt8 :=
  header d number payload.length ++ payload ++ [0x36]

section Positive

variable {d : LedDeviceTpm2net} {max : Nat} {raw : List UInt8} (hmax : d.tpm2Max = max)
  (hcount : d.tpm2ByteCount = raw.length)
include hmax

include hcount in
theorem writeByte_eq : writeByte d raw =
    Packets.body max raw.length (startPacket d) (putByte d raw) (sendPacket d) := by
  funext s i
  have residue : ((i : Int).tmod d.tpm2Max = 0) = (i % max = 0) := by
    rw [hmax, natCast_tmod, Int.natCast_eq_zero]
  have last : ((i : Int) = d.tpm2ByteCount - 1 ∨ (i : Int).tmod d.tpm2Max = d.tpm2Max - 1) =
      (i + 1 = raw.length ∨ i % max + 1 = max) := by
    rw [hmax, hcount, natCast_tmod, eq_iff_iff]
    omega
  simp only [writeByte, Packets.body, residue, last]

include hcount in
theorem startPacket_eq {s : Loop} {k : Nat} (positive : 0 < max)
    (room : s.tpm2Buffer.length = max + 7) (inside : k * max < raw.length) :
    startPacket d s (k * max) = .ok (Loop.holding
      ⟨s.tpm2Buffer, (Packets.chunk max raw k).length, s.tpm2ThisPacket + 1, s.sent⟩
      (header d s.tpm2ThisPacket (Packets.chunk max raw k).length) s.tpm2Buffer) := by
  have bytes : (if d.tpm2ByteCount - ((k * max : Nat) : Int) < d.tpm2Max then
      d.tpm2ByteCount.tmod d.tpm2Max else d.tpm2Max) =
        ((Packets.chunk max raw k).length : Int) := by
    rw [hmax, hcount, natCast_tmod, Packets.chunk_length]
    split_ifs with short
    · obtain ⟨rest, hrest⟩ := Nat.exists_eq_add_of_le inside.le
      rw [hrest, Nat.mul_add_mod_of_lt (by omega)]
      omega
    · omega
  have high : UInt8.ofInt (((Packets.chunk max raw k).length : Int) >>> (8 : Nat)) =
      UInt8.ofNat ((Packets.chunk max raw k).length / 256) := by
    rw [Int.shiftRight_eq_div_pow, ← ofInt_natCast]
    rfl
  rw [startPacket, bytes]
  obtain ⟨b₀, b₁, b₂, b₃, b₄, b₅, rest, hbuffer⟩ : ∃ b₀ b₁ b₂ b₃ b₄ b₅ rest,
      s.tpm2Buffer = b₀ :: b₁ :: b₂ :: b₃ :: b₄ :: b₅ :: rest := by
    match hbuffer : s.tpm2Buffer with
    | b₀ :: b₁ :: b₂ :: b₃ :: b₄ :: b₅ :: rest => exact ⟨b₀, b₁, b₂, b₃, b₄, b₅, rest, rfl⟩
    | [] | [_] | [_, _] | [_, _, _] | [_, _, _, _] | [_, _, _, _, _] =>
      rw [hbuffer] at room
      simp only [List.length_cons, List.length_nil] at room
      omega
  rw [hbuffer, high, ofInt_natCast]
  simp only [assign, List.length_cons, List.set_cons_zero]
  rfl

theorem putByte_eq {s : Loop} {k j : Nat} {front memory : List UInt8} (six : front.length = 6)
    (room : memory.length = max + 7) (inside : j < (Packets.chunk max raw k).length) :
    putByte d raw (s.holding (front ++ (Packets.chunk max raw k).take j) memory) (k * max + j) =
      .ok (s.holding (front ++ ((Packets.chunk max raw k).take j ++ [(Packets.chunk max raw k)[j]]))
        memory) := by
  have bound := Packets.chunk_length max raw k
  have residue : (k * max + j) % max = j := Nat.mul_add_mod_of_lt (by omega)
  have read : raw[k * max + j]? = some (Packets.chunk max raw k)[j] := by
    rw [List.getElem?_eq_getElem (by omega), Option.some.injEq]
    simp [Packets.chunk]
  have taken : (front ++ (Packets.chunk max raw k).take j).length = 6 + j := by
    rw [List.length_append, List.length_take]
    omega
  have position : (6 + ((k * max + j : Nat) : Int).tmod d.tpm2Max).toNat =
      (front ++ (Packets.chunk max raw k).take j).length := by
    rw [hmax, natCast_tmod, residue, taken]
    omega
  rw [putByte, read, Loop.holding]
  simp only [position]
  rw [assign_overwrite (by omega), List.append_assoc]
  rfl

theorem sendPacket_eq {s : Loop} {k rawIdx : Nat} {front memory : List UInt8}
    (six : front.length = 6) (room : memory.length = max + 7)
    (bytes : s.thisPacketBytes = (Packets.chunk max raw k).length)
    (last : rawIdx % max + 1 = (Packets.chunk max raw k).length) :
    sendPacket d (s.holding (front ++ Packets.chunk max raw k) memory) rawIdx =
      .ok (Loop.holding
        { s with sent := s.sent ++ [front ++ Packets.chunk max raw k ++ [0x36]] }
        (front ++ Packets.chunk max raw k ++ [0x36]) memory) := by
  have bound := Packets.chunk_length max raw k
  have filled : (front ++ Packets.chunk max raw k).length = 6 + (rawIdx % max + 1) := by
    rw [List.length_append, six, last]
  have position : (6 + (rawIdx : Int).tmod d.tpm2Max + 1).toNat =
      (front ++ Packets.chunk max raw k).length := by
    rw [hmax, natCast_tmod, filled]
    omega
  have whole : (s.thisPacketBytes + 7).toNat =
      (front ++ Packets.chunk max raw k ++ [0x36]).length := by
    rw [List.length_append, filled, bytes, ← last, List.length_singleton]
    omega
  have inside : 0 ≤ s.thisPacketBytes + 7 ∧ s.thisPacketBytes + 7 ≤
      (Packets.overwrite (front ++ Packets.chunk max raw k ++ [0x36]) memory).length := by
    rw [Packets.overwrite_length (by rw [List.length_append, filled, List.length_singleton]; omega)]
    omega
  rw [sendPacket, position, Loop.holding, assign_overwrite (by omega), ok_bind, writeBytes,
    if_pos inside, whole, Packets.take_overwrite]
  rfl

include hcount in
theorem packet_eq {s : Loop} {k : Nat} (positive : 0 < max)
    (room : s.tpm2Buffer.length = max + 7) (inside : k * max < raw.length) :
    ∃ tpm2Buffer thisPacketBytes, tpm2Buffer.length = max + 7 ∧
      Packets.packet max raw.length (startPacket d) (putByte d raw) (sendPacket d) s k =
        .ok { tpm2Buffer, thisPacketBytes, tpm2ThisPacket := s.tpm2ThisPacket + 1
              sent := s.sent ++ [datagram d s.tpm2ThisPacket (Packets.chunk max raw k)] } := by
  have length := Packets.chunk_length max raw k
  have started := startPacket_eq hmax hcount positive room inside
  refine ⟨Packets.overwrite (datagram d s.tpm2ThisPacket (Packets.chunk max raw k)) s.tpm2Buffer,
    (Packets.chunk max raw k).length, ?_, ?_⟩
  · rw [Packets.overwrite_length, room]
    simp only [datagram, List.length_append, header, List.length_cons, List.length_nil]
    omega
  · rw [Packets.packet_eq (fun payload => Loop.holding
        ⟨s.tpm2Buffer, (Packets.chunk max raw k).length, s.tpm2ThisPacket + 1, s.sent⟩
        (header d s.tpm2ThisPacket (Packets.chunk max raw k).length ++ payload) s.tpm2Buffer)
      (by rw [started, List.append_nil]; rfl)
      fun j inside => putByte_eq hmax rfl room inside, sendPacket_eq hmax rfl room rfl]
    · rfl
    · rw [Nat.add_sub_assoc (by omega), Nat.mul_add_mod_of_lt (by omega)]
      omega

include hcount in
theorem packets_foldlM {s : Loop} (positive : 0 < max) (room : s.tpm2Buffer.length = max + 7)
    (first : s.tpm2ThisPacket = 1) (empty : s.sent = []) :
    ∃ t, (List.range (Packets.count max raw.length)).foldlM
        (Packets.packet max raw.length (startPacket d) (putByte d raw) (sendPacket d)) s = .ok t ∧
      t.sent = (List.range (Packets.count max raw.length)).map
        fun i : Nat => datagram d (1 + i) (Packets.chunk max raw i) := by
  obtain ⟨t, run, _, _, sent⟩ := Packets.foldlM_range_invariant (s := s)
    (f := Packets.packet max raw.length (startPacket d) (putByte d raw) (sendPacket d))
    (P := fun k (t : Loop) => t.tpm2Buffer.length = max + 7 ∧ t.tpm2ThisPacket = 1 + k ∧
      t.sent = (List.range k).map fun i : Nat => datagram d (1 + i) (Packets.chunk max raw i))
    ⟨room, by rw [first]; rfl, empty⟩ fun k hk t ⟨room, number, sent⟩ => by
      obtain ⟨tpm2Buffer, thisPacketBytes, length, next⟩ := packet_eq hmax hcount positive room
        ((Packets.lt_count_iff positive).mp hk)
      refine ⟨_, next, length, by simp only [number]; omega, ?_⟩
      rw [number, sent, List.range_succ, List.map_append, List.map_singleton]
  exact ⟨t, run, sent⟩

end Positive

theorem write_eq {d : LedDeviceTpm2net} {max : Nat} {ledValues : List ColorRgb}
    (hmax : d.tpm2Max = max) (hcount : d.tpm2ByteCount = (rawdata ledValues).length)
    (positive : 0 < max) (fits : max + 7 < 2 ^ 31) (memory : Nat → UInt8) :
    write memory d ledValues = .ok ((List.range (Packets.count max (rawdata ledValues).length)).map
      fun i : Nat => datagram d (1 + i) (Packets.chunk max (rawdata ledValues) i)) := by
  have size : int (d.tpm2Max + 7) = .ok ((max + 7 : Nat) : Int) := by
    rw [int_eq_ok, hmax]
    omega
  obtain ⟨t, run, sent⟩ := packets_foldlM hmax hcount
    (s := ⟨malloc memory ((max + 7 : Nat) : Int), 0, 1, []⟩) positive
    (by rw [malloc, List.length_map, List.length_range]; rfl) rfl rfl
  rw [write, size, ok_bind, hcount, Int.toNat_natCast, writeByte_eq hmax hcount,
    Packets.foldlM_range positive, run, ok_bind, ← sent]
  rfl

theorem assign_length {tpm2Buffer out : List UInt8} {i : Nat} {value : UInt8}
    (ok : assign tpm2Buffer i value = .ok out) :
    i < tpm2Buffer.length ∧ out.length = tpm2Buffer.length := by
  unfold assign at ok
  split_ifs at ok with h
  exact ⟨h, by rw [← Except.ok.inj ok, List.length_set]⟩

theorem startPacket_length {d : LedDeviceTpm2net} {s t : Loop} {rawIdx : Nat}
    (ok : startPacket d s rawIdx = .ok t) : t.tpm2Buffer.length = s.tpm2Buffer.length := by
  rw [startPacket] at ok
  obtain ⟨_, ok₀, ok⟩ := bind_eq_ok.mp ok
  obtain ⟨_, ok₁, ok⟩ := bind_eq_ok.mp ok
  obtain ⟨_, ok₂, ok⟩ := bind_eq_ok.mp ok
  obtain ⟨_, ok₃, ok⟩ := bind_eq_ok.mp ok
  obtain ⟨_, ok₄, ok⟩ := bind_eq_ok.mp ok
  obtain ⟨_, ok₅, ok⟩ := bind_eq_ok.mp ok
  rw [← pure_eq_ok.mp ok]
  simp only [(assign_length ok₅).2, (assign_length ok₄).2, (assign_length ok₃).2,
    (assign_length ok₂).2, (assign_length ok₁).2, (assign_length ok₀).2]

theorem writeByte_room {d : LedDeviceTpm2net} {raw : List UInt8} {s t : Loop}
    (ok : writeByte d raw s 0 = .ok t) : 6 < s.tpm2Buffer.length := by
  rw [writeByte, if_pos (by simp)] at ok
  obtain ⟨started, hstarted, ok⟩ := bind_eq_ok.mp ok
  obtain ⟨put, hput, _⟩ := bind_eq_ok.mp ok
  have same := startPacket_length hstarted
  rw [putByte] at hput
  cases read : raw[0]? with
  | none =>
    rw [read] at hput
    exact absurd hput nofun
  | some byte =>
    rw [read] at hput
    obtain ⟨_, assigned, _⟩ := bind_eq_ok.mp hput
    have := (assign_length assigned).1
    rw [same] at this
    simpa using this

theorem init_eq_ok {ledCount : Int} {deviceConfig : QJsonObject} {d : LedDeviceTpm2net} :
    init ledCount deviceConfig = .ok d ↔ (-2 ^ 31 ≤ 3 * ledCount ∧ 3 * ledCount < 2 ^ 31) ∧
      maxPacket deviceConfig ≠ 0 ∧ d = ⟨maxPacket deviceConfig, 3 * ledCount,
        1 + (3 * ledCount).tdiv (maxPacket deviceConfig)⟩ := by
  unfold init
  constructor
  · intro ok
    obtain ⟨_, hbytes, ok⟩ := bind_eq_ok.mp ok
    obtain ⟨inside, rfl⟩ := int_eq_ok.mp hbytes
    split_ifs at ok with zero
    exact ⟨inside, zero, (Except.ok.inj ok).symm⟩
  · rintro ⟨inside, nonzero, rfl⟩
    rw [int_eq_ok.mpr ⟨inside, rfl⟩, ok_bind, if_neg nonzero]

def ofSizes (max bytes : Nat) : LedDeviceTpm2net := ⟨max, bytes, (1 + bytes / max : Nat)⟩

theorem writeFrame_eq_ok {memory : Nat → UInt8} {deviceConfig : QJsonObject}
    {ledValues : List ColorRgb} {sent : List (List UInt8)} (some : ledValues ≠ []) :
    writeFrame memory deviceConfig ledValues = .ok sent ↔
      ∃ max : Nat, maxPacket deviceConfig = max ∧ 0 < max ∧ max + 7 < 2 ^ 31 ∧
        (rawdata ledValues).length < 2 ^ 31 ∧
        sent = (List.range (Packets.count max (rawdata ledValues).length)).map fun i : Nat =>
          datagram (ofSizes max (rawdata ledValues).length) (1 + i)
            (Packets.chunk max (rawdata ledValues) i) := by
  have many : 0 < ledValues.length := List.length_pos_of_ne_nil some
  have bytes : (3 * (ledValues.length : Int)) = ((rawdata ledValues).length : Int) := by
    rw [rawdata_length]
    omega
  have initialised : ∀ max : Nat, maxPacket deviceConfig = max → 0 < max →
      (rawdata ledValues).length < 2 ^ 31 →
      init ledValues.length deviceConfig = .ok (ofSizes max (rawdata ledValues).length) := by
    intro max hmax positive representable
    rw [init_eq_ok, hmax, bytes]
    exact ⟨by omega, by omega, rfl⟩
  constructor
  · intro ok
    obtain ⟨d, hd, written⟩ := bind_eq_ok.mp ok
    obtain ⟨⟨_, representable⟩, nonzero, rfl⟩ := init_eq_ok.mp hd
    obtain ⟨size, hsize, run⟩ := bind_eq_ok.mp written
    obtain ⟨⟨_, fits⟩, rfl⟩ := int_eq_ok.mp hsize
    obtain ⟨t, run, _⟩ := bind_eq_ok.mp run
    have room : 0 < maxPacket deviceConfig := by
      have first : (3 * (ledValues.length : Int)).toNat = (3 * ledValues.length - 1) + 1 := by omega
      rw [first, List.range_succ_eq_map, List.foldlM_cons] at run
      obtain ⟨_, step, _⟩ := bind_eq_ok.mp run
      have := writeByte_room step
      simp only [malloc, List.length_map, List.length_range] at this
      omega
    obtain ⟨max, hmax⟩ := Int.eq_ofNat_of_zero_le room.le
    have fits : max + 7 < 2 ^ 31 := by
      change maxPacket deviceConfig + 7 < _ at fits
      omega
    have hd := initialised max hmax (by omega) (by omega)
    rw [writeFrame, hd, ok_bind, write_eq rfl rfl (by omega) fits] at ok
    exact ⟨max, hmax, by omega, fits, by omega, (Except.ok.inj ok).symm⟩
  · rintro ⟨max, hmax, positive, fits, representable, rfl⟩
    rw [writeFrame, initialised max hmax positive representable, ok_bind]
    exact write_eq rfl rfl positive fits memory

def packet (max : Nat) (rgb : List UInt8) (k : Nat) : Packet where
  size := (Packets.chunk max rgb k).length % 2 ^ 16
  number := (1 + k) % 2 ^ 8
  total := (1 + rgb.length / max) % 2 ^ 8
  payload := Packets.chunk max rgb k

theorem parse_datagram (max : Nat) (rgb : List UInt8) (k : Nat) :
    Packet.parse (datagram (ofSizes max rgb.length) (1 + k) (Packets.chunk max rgb k)) =
      some (packet max rgb k) := by
  have number : (1 + k : Int) = ((1 + k : Nat) : Int) := by omega
  have size : 256 * ((Packets.chunk max rgb k).length / 256 % 2 ^ 8) +
      (Packets.chunk max rgb k).length % 2 ^ 8 = (Packets.chunk max rgb k).length % 2 ^ 16 := by
    omega
  rw [datagram, header, number, ofInt_natCast, ofSizes, ofInt_natCast]
  simp only [List.cons_append, List.nil_append, Packet.parse, List.getLast?_concat, if_true,
    List.dropLast_concat, packet, UInt8.toNat_ofNat', size]

theorem carries_packets_iff {max : Nat} (positive : 0 < max) {rgb : List UInt8} (some : rgb ≠ []) :
    Carries max rgb ((List.range (Packets.count max rgb.length)).map fun i : Nat =>
        datagram (ofSizes max rgb.length) (1 + i) (Packets.chunk max rgb i)) ↔
      Packets.count max rgb.length < 2 ^ 8 ∧
        (1 + rgb.length / max) % 2 ^ 8 = Packets.count max rgb.length ∧
        min max rgb.length < 2 ^ 16 := by
  have many : 0 < Packets.count max rgb.length :=
    Packets.count_pos positive (List.length_pos_of_ne_nil some)
  have parsed : ((List.range (Packets.count max rgb.length)).map fun i : Nat =>
      datagram (ofSizes max rgb.length) (1 + i) (Packets.chunk max rgb i)).map Packet.parse =
        ((List.range (Packets.count max rgb.length)).map (packet max rgb)).map Option.some := by
    rw [List.map_map, List.map_map]
    exact List.map_congr_left fun k _ => parse_datagram max rgb k
  have flat : ((List.range (Packets.count max rgb.length)).map (packet max rgb)).flatMap
      Packet.payload = rgb := by
    rw [List.flatMap_map]
    exact Packets.flatMap_chunk positive rgb
  constructor
  · rintro ⟨packets, hpackets, numbers, fields, _⟩
    rw [parsed] at hpackets
    obtain rfl := List.map_injective_iff.mpr (Option.some_injective _) hpackets
    rw [List.length_map, List.length_range] at numbers fields
    have last := List.getElem_of_eq numbers (i := Packets.count max rgb.length - 1)
      (by simp only [List.length_map, List.length_range]; omega)
    have first := fields (packet max rgb 0) (List.mem_map.mpr ⟨0, List.mem_range.mpr many, rfl⟩)
    have length := Packets.chunk_length max rgb 0
    simp only [List.getElem_map, List.getElem_range, packet] at last first
    rw [Nat.zero_mul] at length
    exact ⟨by omega, first.1, by omega⟩
  · rintro ⟨numbers, announced, sizes⟩
    refine ⟨_, parsed, ?_, ?_, flat⟩
    · rw [List.map_map, List.length_map, List.length_range]
      refine List.map_congr_left fun k hk => ?_
      have := List.mem_range.mp hk
      exact Nat.mod_eq_of_lt (by omega)
    · intro p hp
      obtain ⟨k, hk, rfl⟩ := List.mem_map.mp hp
      have length := Packets.chunk_length max rgb k
      rw [List.length_map, List.length_range]
      exact ⟨announced, Nat.mod_eq_of_lt (by omega), by simp only [packet]; omega⟩

/-- The announced count is the count when `max-packet` leaves a rest of the
frame's bytes, and one more than it otherwise. -/
theorem carries_iff {max : Nat} (positive : 0 < max) {rgb : List UInt8} (some : rgb ≠ []) :
    Carries max rgb ((List.range (Packets.count max rgb.length)).map fun i : Nat =>
        datagram (ofSizes max rgb.length) (1 + i) (Packets.chunk max rgb i)) ↔
      ¬ max ∣ rgb.length ∧ 1 + rgb.length / max < 2 ^ 8 ∧ min max rgb.length < 2 ^ 16 := by
  rw [carries_packets_iff positive some]
  by_cases divides : max ∣ rgb.length
  · have many := Packets.count_pos positive (List.length_pos_of_ne_nil some)
    rw [Packets.count_of_dvd positive divides] at many ⊢
    exact iff_of_false (by omega) fun h => h.1 divides
  · rw [Packets.count_of_not_dvd positive divides]
    constructor
    · rintro ⟨numbers, _, sizes⟩
      exact ⟨divides, numbers, sizes⟩
    · rintro ⟨_, numbers, sizes⟩
      exact ⟨numbers, Nat.mod_eq_of_lt numbers, sizes⟩

/-- A frame arrives whole exactly when `max-packet` is positive and no divisor
of the frame's bytes, there are at most 255 packets of less than 65536 bytes,
and the buffer's size is an `int`. -/
theorem writeFrame_carries_iff (memory : Nat → UInt8) (deviceConfig : QJsonObject)
    {ledValues : List ColorRgb} (some : ledValues ≠ []) :
    (∃ sent, writeFrame memory deviceConfig ledValues = .ok sent ∧
        Carries (maxPacket deviceConfig) (rawdata ledValues) sent) ↔
      0 < maxPacket deviceConfig ∧ maxPacket deviceConfig + 7 < 2 ^ 31 ∧
        ¬ maxPacket deviceConfig ∣ 3 * ledValues.length ∧
        1 + 3 * ledValues.length / maxPacket deviceConfig ≤ 255 ∧
        min (maxPacket deviceConfig) (3 * ledValues.length) < 2 ^ 16 := by
  have bytes : (3 * (ledValues.length : Int)) = ((rawdata ledValues).length : Int) := by
    rw [rawdata_length]
    omega
  rw [bytes]
  constructor
  · rintro ⟨sent, ok, carries⟩
    obtain ⟨max, hmax, positive, fits, _, rfl⟩ := (writeFrame_eq_ok some).mp ok
    rw [hmax] at carries ⊢
    obtain ⟨leaves, numbers, sizes⟩ := (carries_iff positive (rawdata_ne_nil some)).mp carries
    refine ⟨by omega, by omega, fun h => leaves (Int.natCast_dvd_natCast.mp h), ?_, by omega⟩
    rw [← Int.natCast_ediv]
    omega
  · rintro ⟨positive, fits, leaves, numbers, sizes⟩
    obtain ⟨max, hmax⟩ := Int.eq_ofNat_of_zero_le positive.le
    rw [hmax] at positive fits leaves numbers sizes ⊢
    rw [← Int.natCast_ediv] at numbers
    have below : (rawdata ledValues).length < 255 * max :=
      (Nat.div_lt_iff_lt_mul (by omega)).mp (by omega)
    refine ⟨_, (writeFrame_eq_ok some).mpr ⟨max, hmax, by omega, by omega, by omega, rfl⟩, ?_⟩
    exact (carries_iff (by omega) (rawdata_ne_nil some)).mpr
      ⟨fun h => leaves (Int.natCast_dvd_natCast.mpr h), by omega, by omega⟩

theorem writeFrame_carries_two_leds : ∃ sent,
    writeFrame (fun _ => 0) [("max-packet", .double 4)] [⟨1, 2, 3⟩, ⟨4, 5, 6⟩] = .ok sent ∧
      Carries 4 [1, 2, 3, 4, 5, 6] sent :=
  (writeFrame_carries_iff (fun _ => 0) [("max-packet", .double 4)] (by decide)).mpr
    (by decide +kernel)

/-- Packets of three bytes for one LED: one is sent, and it announces two. -/
theorem one_packet_announces_two :
    writeFrame (fun _ => 0) [("max-packet", .double 3)] [⟨7, 8, 9⟩] =
        .ok [[0x9c, 0xda, 0, 3, 1, 2, 7, 8, 9, 0x36]] ∧
      ¬ Carries 3 [7, 8, 9] [[0x9c, 0xda, 0, 3, 1, 2, 7, 8, 9, 0x36]] := by
  refine ⟨by decide +kernel, ?_⟩
  rintro ⟨packets, parsed, _, fields, _⟩
  have parsed : [some ⟨3, 1, 2, [7, 8, 9]⟩] = packets.map some := parsed
  cases packets with
  | nil => exact absurd parsed nofun
  | cons packet rest =>
    obtain ⟨hpacket, hrest⟩ := List.cons.inj parsed
    have announced := (fields packet (by simp)).1
    rw [← Option.some.inj hpacket, List.map_eq_nil_iff.mp hrest.symm] at announced
    exact absurd announced (by decide)

end LedDeviceTpm2net

end HyperionNg
