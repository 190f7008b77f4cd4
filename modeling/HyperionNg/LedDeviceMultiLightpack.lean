import HyperionNg.Image
import HyperionNg.Types
import HyperionNg.Library.Execution
import HyperionNg.Library.Packets

/-! Several Lightpacks as one device. Each opened pack knows the LED count of
its hardware; `getLedCount` answers the static count of the whole device. -/

namespace HyperionNg

open Library Library.Execution

/-- An opened pack: a command byte and six bytes for each LED in its buffer. -/
structure LedDeviceLightpack where
  hwLedCount : Nat
  ledBuffer : List UInt8
  sized : ledBuffer.length = 1 + hwLedCount * 6

namespace LedDeviceLightpack

def getLedCount (ledCount : Nat) (_ : LedDeviceLightpack) : Nat := ledCount

def copyColor (device : LedDeviceLightpack) (i : Nat) (color : ColorRgb) : LedDeviceLightpack where
  hwLedCount := device.hwLedCount
  ledBuffer := ((device.ledBuffer.set (6 * i + 1) color.red).set (6 * i + 2) color.green).set
    (6 * i + 3) color.blue
  sized := by simp only [List.length_set, device.sized]

/-- The pack whose buffer is transferred, and the positions of the colours it
has read from `data` on. The source's `size` is not looked at. -/
def write (ledCount : Nat) (device : LedDeviceLightpack) (ledValues : List ColorRgb) (data : Nat) :
    Except Fault (LedDeviceLightpack × List Nat) :=
  (List.range (min device.hwLedCount ledCount)).foldlM (fun (device, received) i =>
    match ledValues[data + i]? with
    | none => .error .undefinedBehaviour
    | some color => .ok (device.copyColor i color, received ++ [data + i])) (device, [])

/-- The buffer holds this colour for LED `i`. -/
def Shows (device : LedDeviceLightpack) (i : Nat) (color : ColorRgb) : Prop :=
  device.ledBuffer[6 * i + 1]? = some color.red ∧ device.ledBuffer[6 * i + 2]? = some color.green ∧
    device.ledBuffer[6 * i + 3]? = some color.blue

theorem copyColor_shows {device : LedDeviceLightpack} {i : Nat} (inside : i < device.hwLedCount)
    (color : ColorRgb) : (device.copyColor i color).Shows i color := by
  have sized := device.sized
  refine ⟨?_, ?_, ?_⟩ <;> simp [copyColor, List.getElem?_set] <;> omega

theorem Shows.copyColor {device : LedDeviceLightpack} {i j : Nat} {color : ColorRgb}
    (shows_ : device.Shows i color) (other : i ≠ j) (copied : ColorRgb) :
    (device.copyColor j copied).Shows i color := by
  obtain ⟨red, green, blue⟩ := shows_
  refine ⟨?_, ?_, ?_⟩
  · rwa [LedDeviceLightpack.copyColor, List.getElem?_set_ne (by omega),
      List.getElem?_set_ne (by omega), List.getElem?_set_ne (by omega)]
  · rwa [LedDeviceLightpack.copyColor, List.getElem?_set_ne (by omega),
      List.getElem?_set_ne (by omega), List.getElem?_set_ne (by omega)]
  · rwa [LedDeviceLightpack.copyColor, List.getElem?_set_ne (by omega),
      List.getElem?_set_ne (by omega), List.getElem?_set_ne (by omega)]

theorem write_returns {ledCount data : Nat} {device : LedDeviceLightpack}
    {ledValues : List ColorRgb}
    (enough : data + min device.hwLedCount ledCount ≤ ledValues.length) :
    ∃ after, device.write ledCount ledValues data =
        .ok (after, List.range' data (min device.hwLedCount ledCount)) ∧
      ∀ i < min device.hwLedCount ledCount, ∃ color, ledValues[data + i]? = some color ∧
        after.Shows i color := by
  obtain ⟨⟨after, received⟩, run, _, rfl, shows_⟩ := Packets.foldlM_range_invariant
    (m := Except Fault) (n := min device.hwLedCount ledCount) (s := (device, ([] : List Nat)))
    (P := fun k t => t.1.hwLedCount = device.hwLedCount ∧ t.2 = List.range' data k ∧
      ∀ i < k, ∃ color, ledValues[data + i]? = some color ∧ t.1.Shows i color)
    (f := fun (device, received) i =>
      match ledValues[data + i]? with
      | none => .error .undefinedBehaviour
      | some color => .ok (device.copyColor i color, received ++ [data + i]))
    ⟨rfl, rfl, nofun⟩ fun k hk ⟨now, received⟩ ⟨count, received_eq, shows_⟩ => by
      have read := List.getElem?_eq_getElem (show data + k < ledValues.length by omega)
      refine ⟨(now.copyColor k ledValues[data + k], received ++ [data + k]), ?_, count, ?_, ?_⟩
      · simp only [read]
        rfl
      · rw [List.range'_concat, Nat.one_mul, ← received_eq]
      · intro i hi
        by_cases last : i = k
        · subst last
          exact ⟨_, read, copyColor_shows (by simp only at count; omega) _⟩
        · obtain ⟨color, here, held⟩ := shows_ i (by omega)
          exact ⟨color, here, held.copyColor last _⟩
  exact ⟨after, run, shows_⟩

theorem write_inside {ledCount data : Nat} {device : LedDeviceLightpack}
    {ledValues : List ColorRgb} {written : LedDeviceLightpack × List Nat}
    (ok : device.write ledCount ledValues data = .ok written) :
    min device.hwLedCount ledCount = 0 ∨
      data + min device.hwLedCount ledCount ≤ ledValues.length := by
  rcases Nat.eq_zero_or_pos (min device.hwLedCount ledCount) with none | some
  · exact Or.inl none
  · rw [write, ← Nat.sub_add_cancel some, List.range_succ, List.foldlM_append] at ok
    obtain ⟨⟨now, received⟩, _, last⟩ := bind_eq_ok.mp ok
    rw [List.foldlM_cons] at last
    obtain ⟨_, last, _⟩ := bind_eq_ok.mp last
    cases read : ledValues[data + (min device.hwLedCount ledCount - 1)]? with
    | none =>
      simp only [read] at last
      exact absurd last nofun
    | some color =>
      obtain ⟨below, _⟩ := List.getElem?_eq_some_iff.mp read
      omega

theorem write_ok {ledCount data : Nat} {device : LedDeviceLightpack} {ledValues : List ColorRgb}
    {written : LedDeviceLightpack × List Nat}
    (ok : device.write ledCount ledValues data = .ok written) :
    written.2 = List.range' data (min device.hwLedCount ledCount) ∧
      ∀ i (h : i < written.2.length), ∃ color, ledValues[written.2[i]]? = some color ∧
        written.1.Shows i color := by
  rcases write_inside ok with none | enough
  · rw [write, none] at ok
    rw [none, ← pure_eq_ok.mp ok]
    exact ⟨rfl, nofun⟩
  · obtain ⟨after, run, shows_⟩ := write_returns enough
    rw [ok] at run
    obtain rfl := Except.ok.inj run
    refine ⟨rfl, fun i h => ?_⟩
    rw [List.length_range'] at h
    simpa only [List.getElem_range', Nat.one_mul] using shows_ i h

end LedDeviceLightpack

namespace LedDeviceMultiLightpack

/-- The loop over the packs, from the colour at `data` on. A pack without a
colour left is not written. -/
def writeFrom (ledCount : Nat) (ledValues : List ColorRgb) (data : Nat) (size : Int) :
    List LedDeviceLightpack → Except Fault (List (LedDeviceLightpack × List Nat))
  | [] => .ok []
  | device :: rest =>
    let count := min (device.getLedCount ledCount : Int) size
    if 0 < count then do
      let written ← device.write ledCount ledValues data
      let later ← writeFrom ledCount ledValues (data + count.toNat) (size - count) rest
      pure (written :: later)
    else do
      let later ← writeFrom ledCount ledValues data size rest
      pure ((device, []) :: later)

/-- The packs after the call, each with the positions of the colours it has
received. -/
def write (ledCount : Nat) (lightpacks : List LedDeviceLightpack) (ledValues : List ColorRgb) :
    Except Fault (List (LedDeviceLightpack × List Nat)) :=
  writeFrom ledCount ledValues 0 (signed ledValues.length) lightpacks

/-- The positions due to each pack: the next `min(hwLedCount, remaining)`. -/
def due (size : Nat) : Nat → List LedDeviceLightpack → List (List Nat)
  | _, [] => []
  | data, device :: rest =>
    List.range' data (min device.hwLedCount (size - data)) ::
      due size (data + min device.hwLedCount (size - data)) rest

/-- Each pack has received what is due to it, and shows those colours. -/
structure HandsOut (ledValues : List ColorRgb) (lightpacks : List LedDeviceLightpack)
    (written : List (LedDeviceLightpack × List Nat)) : Prop where
  positions : written.map Prod.snd = due ledValues.length 0 lightpacks
  colours : ∀ pack ∈ written, ∀ i (h : i < pack.2.length), ∃ color,
    ledValues[pack.2[i]]? = some color ∧ pack.1.Shows i color

/-- One pack takes what the split counts for it, and the split passes over what
is due to the pack, or no LED comes behind it. -/
def Agrees (ledCount remaining : Nat) (pack : LedDeviceLightpack)
    (after : List LedDeviceLightpack) : Prop :=
  min pack.hwLedCount ledCount = min pack.hwLedCount remaining ∧
    (min pack.hwLedCount remaining = min ledCount remaining ∨
      ∀ later ∈ after, later.hwLedCount = 0)

section Loop

variable {ledCount : Nat} {ledValues : List ColorRgb}

theorem writeFrom_cons {data : Nat} (below : data < ledValues.length)
    (device : LedDeviceLightpack) (rest : List LedDeviceLightpack) :
    writeFrom ledCount ledValues data ((ledValues.length : Int) - data) (device :: rest) =
      device.write ledCount ledValues data >>= fun written =>
        writeFrom ledCount ledValues (data + min ledCount (ledValues.length - data))
            ((ledValues.length : Int) - (data + min ledCount (ledValues.length - data) : Nat))
              rest >>=
          fun later => pure (written :: later) := by
  rw [writeFrom, LedDeviceLightpack.getLedCount]
  have count : min (ledCount : Int) ((ledValues.length : Int) - data) =
      (min ledCount (ledValues.length - data) : Nat) := by omega
  rw [count, Int.toNat_natCast]
  split_ifs with some
  · have left : (ledValues.length : Int) - data - (min ledCount (ledValues.length - data) : Nat) =
        (ledValues.length : Int) - (data + min ledCount (ledValues.length - data) : Nat) := by omega
    rw [left]
  · obtain rfl : ledCount = 0 := by omega
    rw [LedDeviceLightpack.write, Nat.min_zero, Nat.zero_min]
    rfl

theorem writeFrom_cons_end (data : Nat) (device : LedDeviceLightpack)
    (rest : List LedDeviceLightpack) :
    writeFrom ledCount ledValues data 0 (device :: rest) =
      writeFrom ledCount ledValues data 0 rest >>= fun later => pure ((device, []) :: later) := by
  rw [writeFrom, if_neg (by omega)]

theorem writeFrom_end (ledCount : Nat) (ledValues : List ColorRgb) (data : Nat)
    (lightpacks : List LedDeviceLightpack) :
    ∃ written, writeFrom ledCount ledValues data 0 lightpacks = .ok written ∧
      written.map Prod.snd = due ledValues.length ledValues.length lightpacks ∧
      ∀ pack ∈ written, pack.2 = [] := by
  induction lightpacks with
  | nil => exact ⟨[], rfl, rfl, by simp⟩
  | cons device rest ih =>
    obtain ⟨later, run, positions, empty⟩ := ih
    refine ⟨(device, []) :: later, ?_, ?_, ?_⟩
    · rw [writeFrom_cons_end, run]
      rfl
    · rw [due, Nat.sub_self, Nat.min_zero, List.map_cons, positions]
      rfl
    · simpa using empty

theorem writeFrom_no_leds (ledCount : Nat) {ledValues : List ColorRgb} {data : Nat}
    (within : data ≤ ledValues.length) (position : Nat)
    {lightpacks : List LedDeviceLightpack} (none : ∀ pack ∈ lightpacks, pack.hwLedCount = 0) :
    ∃ written, writeFrom ledCount ledValues data ((ledValues.length : Int) - data) lightpacks =
        .ok written ∧
      written.map Prod.snd = due ledValues.length position lightpacks := by
  induction lightpacks generalizing data with
  | nil => exact ⟨[], rfl, rfl⟩
  | cons device rest ih =>
    have zero : device.hwLedCount = 0 := none device (by simp)
    rcases Nat.lt_or_eq_of_le within with below | rfl
    · obtain ⟨later, run, positions⟩ :=
        ih (show data + min ledCount (ledValues.length - data) ≤ ledValues.length by omega)
          fun pack hpack => none pack (by simp [hpack])
      refine ⟨(device, []) :: later, ?_, ?_⟩
      · rw [writeFrom_cons below, LedDeviceLightpack.write, zero, Nat.zero_min, List.range_zero,
          List.foldlM_nil, pure_bind, run]
        rfl
      · rw [due, zero, Nat.zero_min, List.map_cons, positions]
        rfl
    · obtain ⟨later, run, positions⟩ := ih le_rfl fun pack hpack => none pack (by simp [hpack])
      rw [Int.sub_self] at run ⊢
      refine ⟨(device, []) :: later, ?_, ?_⟩
      · rw [writeFrom_cons_end, run]
        rfl
      · rw [due, zero, Nat.zero_min, List.map_cons, positions]
        rfl

theorem writeFrom_shows {data : Nat} (within : data ≤ ledValues.length)
    {lightpacks : List LedDeviceLightpack} {written : List (LedDeviceLightpack × List Nat)}
    (ok : writeFrom ledCount ledValues data ((ledValues.length : Int) - data) lightpacks =
      .ok written) :
    ∀ pack ∈ written, ∀ i (h : i < pack.2.length), ∃ color,
      ledValues[pack.2[i]]? = some color ∧ pack.1.Shows i color := by
  induction lightpacks generalizing data written with
  | nil =>
    obtain rfl := Except.ok.inj ok
    simp
  | cons device rest ih =>
    rcases Nat.lt_or_eq_of_le within with below | rfl
    · rw [writeFrom_cons below] at ok
      obtain ⟨first, hfirst, ok⟩ := bind_eq_ok.mp ok
      obtain ⟨later, run, ok⟩ := bind_eq_ok.mp ok
      rw [← pure_eq_ok.mp ok]
      exact List.forall_mem_cons.mpr
        ⟨(LedDeviceLightpack.write_ok hfirst).2, ih (by omega) run⟩
    · rw [Int.sub_self] at ok
      obtain ⟨ended, run, _, empty⟩ := writeFrom_end ledCount ledValues ledValues.length
        (device :: rest)
      rw [ok] at run
      obtain rfl := Except.ok.inj run
      intro pack hpack i h
      rw [empty pack hpack] at h
      exact absurd h (Nat.not_lt_zero i)

theorem writeFrom_ahead {data position : Nat} (within : data ≤ ledValues.length)
    (ahead : position < data) {lightpacks : List LedDeviceLightpack}
    {written : List (LedDeviceLightpack × List Nat)}
    (ok : writeFrom ledCount ledValues data ((ledValues.length : Int) - data) lightpacks =
      .ok written)
    (positions : written.map Prod.snd = due ledValues.length position lightpacks) :
    ∀ pack ∈ lightpacks, pack.hwLedCount = 0 := by
  induction lightpacks generalizing data written with
  | nil => simp
  | cons device rest ih =>
    have step : ∃ first later data', written = first :: later ∧ (first.2 = [] ∨
          first.2 = List.range' data (min device.hwLedCount ledCount)) ∧
        data ≤ data' ∧ data' ≤ ledValues.length ∧
        writeFrom ledCount ledValues data' ((ledValues.length : Int) - data') rest = .ok later := by
      rcases Nat.lt_or_eq_of_le within with below | rfl
      · rw [writeFrom_cons below] at ok
        obtain ⟨first, hfirst, ok⟩ := bind_eq_ok.mp ok
        obtain ⟨later, run, ok⟩ := bind_eq_ok.mp ok
        exact ⟨first, later, _, (pure_eq_ok.mp ok).symm,
          Or.inr (LedDeviceLightpack.write_ok hfirst).1, by omega, by omega, run⟩
      · rw [Int.sub_self, writeFrom_cons_end] at ok
        obtain ⟨later, run, ok⟩ := bind_eq_ok.mp ok
        exact ⟨_, later, _, (pure_eq_ok.mp ok).symm, Or.inl rfl, le_rfl, le_rfl,
          by rwa [Int.sub_self]⟩
    obtain ⟨first, later, data', rfl, received, grows, within', run⟩ := step
    rw [List.map_cons, due, List.cons.injEq] at positions
    have zero : device.hwLedCount = 0 := by
      by_contra some
      have heads := congrArg List.head? positions.1
      rw [List.head?_range', if_neg (by omega)] at heads
      rcases received with none | taken
      · rw [none] at heads
        exact absurd heads nofun
      · rw [taken, List.head?_range'] at heads
        split_ifs at heads
        have := Option.some.inj heads
        omega
    rw [zero, Nat.zero_min, Nat.add_zero] at positions
    exact List.forall_mem_cons.mpr ⟨zero, ih within' (by omega) run positions.2⟩

theorem forall_split_cons {Q : Nat → LedDeviceLightpack → List LedDeviceLightpack → Prop}
    {device : LedDeviceLightpack} {rest : List LedDeviceLightpack} :
    (∀ (before : List LedDeviceLightpack) pack after,
        device :: rest = before ++ pack :: after → Q before.length pack after) ↔
      Q 0 device rest ∧ ∀ (before : List LedDeviceLightpack) pack after,
        rest = before ++ pack :: after → Q (before.length + 1) pack after := by
  constructor
  · exact fun all => ⟨all [] device rest rfl, fun before pack after split =>
      all (device :: before) pack after (by rw [split]; rfl)⟩
  · rintro ⟨first, others⟩ before pack after split
    cases before with
    | nil =>
      obtain ⟨rfl, rfl⟩ := List.cons.inj split
      exact first
    | cons _ before => exact others before pack after (List.cons.inj split).2

theorem writeFrom_due_iff (ledCount : Nat) {data : Nat} (within : data ≤ ledValues.length)
    (lightpacks : List LedDeviceLightpack) :
    (∃ written, writeFrom ledCount ledValues data ((ledValues.length : Int) - data) lightpacks =
        .ok written ∧ written.map Prod.snd = due ledValues.length data lightpacks) ↔
      ∀ before pack after, lightpacks = before ++ pack :: after →
        data + ledCount * before.length < ledValues.length →
          Agrees ledCount (ledValues.length - (data + ledCount * before.length)) pack after := by
  induction lightpacks generalizing data with
  | nil => simp [writeFrom, due]
  | cons device rest ih =>
    rw [forall_split_cons (Q := fun n pack after => data + ledCount * n < ledValues.length →
      Agrees ledCount (ledValues.length - (data + ledCount * n)) pack after), Nat.mul_zero,
      Nat.add_zero]
    rcases Nat.lt_or_eq_of_le within with below | rfl
    · have later_iff : (∀ before pack after, rest = before ++ pack :: after →
          data + ledCount * (before.length + 1) < ledValues.length →
            Agrees ledCount (ledValues.length - (data + ledCount * (before.length + 1))) pack
              after) ↔ ∃ later, writeFrom ledCount ledValues
            (data + min ledCount (ledValues.length - data)) ((ledValues.length : Int) -
              (data + min ledCount (ledValues.length - data) : Nat)) rest = .ok later ∧
          later.map Prod.snd = due ledValues.length
            (data + min ledCount (ledValues.length - data)) rest := by
        have next (k : Nat) : data + ledCount * (k + 1) = data + ledCount + ledCount * k := by
          rw [Nat.mul_succ]
          omega
        rw [ih (by omega)]
        by_cases fits : data + ledCount ≤ ledValues.length
        · rw [min_eq_left (by omega)]
          simp only [next]
        · refine iff_of_true ?_ ?_
          · intro before pack after _ h
            rw [next] at h
            omega
          · intro before pack after _ h
            omega
      rw [later_iff, imp_iff_right below, writeFrom_cons below]
      constructor
      · rintro ⟨written, ok, positions⟩
        obtain ⟨first, hfirst, ok⟩ := bind_eq_ok.mp ok
        obtain ⟨later, run, ok⟩ := bind_eq_ok.mp ok
        rw [← pure_eq_ok.mp ok, List.map_cons, due, List.cons.injEq,
          (LedDeviceLightpack.write_ok hfirst).1] at positions
        have taken := congrArg List.length positions.1
        rw [List.length_range', List.length_range'] at taken
        by_cases passed : min device.hwLedCount (ledValues.length - data) =
            min ledCount (ledValues.length - data)
        · rw [passed] at positions
          exact ⟨⟨taken, Or.inl passed⟩, later, run, positions.2⟩
        · have zero := writeFrom_ahead (by omega) (by omega) run positions.2
          exact ⟨⟨taken, Or.inr zero⟩, writeFrom_no_leds ledCount (by omega) _ zero⟩
      · rintro ⟨⟨taken, passed⟩, later, run, positions⟩
        obtain ⟨first, hfirst, _⟩ := LedDeviceLightpack.write_returns
          (show data + min device.hwLedCount ledCount ≤ ledValues.length by omega)
        rcases passed with passed | zero
        · refine ⟨_ :: later, by rw [hfirst, ok_bind, run]; rfl, ?_⟩
          rw [List.map_cons, due, taken, passed, positions]
        · obtain ⟨last, run, positions⟩ := writeFrom_no_leds ledCount
            (show data + min ledCount (ledValues.length - data) ≤ ledValues.length by omega)
            (data + min device.hwLedCount (ledValues.length - data)) zero
          refine ⟨_ :: last, by rw [hfirst, ok_bind, run]; rfl, ?_⟩
          rw [List.map_cons, due, taken, positions]
    · obtain ⟨written, run, positions, _⟩ := writeFrom_end ledCount ledValues ledValues.length
        (device :: rest)
      rw [Int.sub_self]
      refine iff_of_true ⟨written, run, positions⟩ ⟨fun h => absurd h (lt_irrefl _), ?_⟩
      intro before pack after _ h
      omega

end Loop

/-- The packs receive what is due to them exactly when, as long as colours
remain for the split, it agrees with the packs' own counts. -/
theorem write_handsOut_iff (ledCount : Nat) (lightpacks : List LedDeviceLightpack)
    {ledValues : List ColorRgb} (short : ledValues.length < 2 ^ 31) :
    (∃ written, write ledCount lightpacks ledValues = .ok written ∧
        HandsOut ledValues lightpacks written) ↔
      ∀ before pack after, lightpacks = before ++ pack :: after →
        ledCount * before.length < ledValues.length →
          Agrees ledCount (ledValues.length - ledCount * before.length) pack after := by
  have size : signed ledValues.length = (ledValues.length : Int) - (0 : Nat) := by
    rw [signed, Int.bmod_eq_of_le (by omega) (by omega)]
    omega
  have loop := writeFrom_due_iff ledCount (Nat.zero_le ledValues.length) lightpacks
  simp only [Nat.zero_add] at loop
  rw [← loop, write, size]
  constructor
  · rintro ⟨written, ok, handsOut⟩
    exact ⟨written, ok, handsOut.positions⟩
  · rintro ⟨written, ok, positions⟩
    exact ⟨written, ok, positions, writeFrom_shows (Nat.zero_le _) ok⟩

def pack (hwLedCount : Nat) : LedDeviceLightpack where
  hwLedCount
  ledBuffer := 1 :: List.replicate (hwLedCount * 6) 0
  sized := by rw [List.length_cons, List.length_replicate, Nat.add_comm]

theorem write_handsOut_two_packs : ∃ written,
    write 1 [pack 1, pack 1] [⟨1, 2, 3⟩, ⟨4, 5, 6⟩] = .ok written ∧
      HandsOut [⟨1, 2, 3⟩, ⟨4, 5, 6⟩] [pack 1, pack 1] written ∧
      written.map Prod.snd = [[0], [1]] := by
  have agree : ∀ before pack_ after, [pack 1, pack 1] = before ++ pack_ :: after →
      1 * before.length < 2 → Agrees 1 (2 - 1 * before.length) pack_ after := by
    intro before pack_ after split _
    match before with
    | [] =>
      obtain ⟨rfl, rfl⟩ := List.cons.inj split
      exact ⟨rfl, Or.inl rfl⟩
    | [_] =>
      obtain ⟨rfl, rfl⟩ := List.cons.inj (List.cons.inj split).2
      exact ⟨rfl, Or.inl rfl⟩
    | _ :: _ :: before => simp at split
  obtain ⟨written, ok, handsOut⟩ := (@write_handsOut_iff 1 [pack 1, pack 1]
    [⟨1, 2, 3⟩, ⟨4, 5, 6⟩] (by decide)).mpr agree
  exact ⟨written, ok, handsOut, handsOut.positions⟩

/-- Two packs of one LED for two LEDs in all: the first takes the first colour,
and the split has passed over both. -/
theorem second_pack_left_out : ∃ first second,
    write 2 [pack 1, pack 1] [⟨1, 2, 3⟩, ⟨4, 5, 6⟩] = .ok [(first, [0]), (second, [])] ∧
      ¬ HandsOut [⟨1, 2, 3⟩, ⟨4, 5, 6⟩] [pack 1, pack 1] [(first, [0]), (second, [])] := by
  refine ⟨(pack 1).copyColor 0 ⟨1, 2, 3⟩, pack 1, ?_, ?_⟩
  · rfl
  · intro handsOut
    exact absurd handsOut.positions (by decide)

end LedDeviceMultiLightpack

end HyperionNg
