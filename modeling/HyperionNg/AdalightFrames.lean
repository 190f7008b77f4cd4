import HyperionNg.Adalight
import HyperionNg.LedDeviceAdalight

/-! What the sketch makes of the driver's frames: where it looks for the magic
word, and where it is inside a frame it believes in. -/

namespace HyperionNg.Adalight

open Library FrameSync LedDeviceAdalight

variable {intBits : Nat}

@[simp] theorem length_dark : dark.length = maxLeds := List.length_replicate

def visible (ledValues : List ColorRgb) : List ColorRgb :=
  shown (ledValues ++ dark.drop ledValues.length)

def Ready (s : Receiver) : Prop := ∃ i ≤ 2, s.waiting = .magic i

/-- The bytes outstanding where the sketch does not look for the magic word. -/
def need (s : Receiver) : Nat :=
  match s.waiting with
  | .magic _ => 0
  | .hi => 3 * maxLeds + 3
  | .lo _ => 3 * maxLeds + 2
  | .chk _ _ => 3 * maxLeds + 1
  | .red idx numLeds => 3 * (numLeds - idx)
  | .green idx numLeds _ => 3 * (numLeds - idx) - 1
  | .blue idx numLeds _ _ => 3 * (numLeds - idx) - 2

def Valid (s : Receiver) : Prop :=
  match s.waiting with
  | .magic i => i ≤ 2
  | .hi | .lo _ | .chk _ _ => True
  | .red idx numLeds | .green idx numLeds _ | .blue idx numLeds _ _ =>
    idx < numLeds ∧ numLeds ≤ maxLeds

private theorem numLeds_le (hi lo : UInt8) : numLeds intBits hi lo ≤ maxLeds := by
  have less := min_le_left (maxLeds : Int)
    (((256 * hi.toNat + lo.toNat + 1 : Nat) : Int).bmod (2 ^ intBits))
  rw [numLeds]
  omega

theorem Valid.nextLed {leds : List ColorRgb} {idx numLeds : Nat} (few : numLeds ≤ maxLeds) :
    Valid (nextLed leds idx numLeds).1 := by
  rw [Adalight.nextLed]
  split_ifs with more
  · exact ⟨more, few⟩
  · exact Nat.zero_le 2

theorem Valid.read {s : Receiver} (valid : Valid s) (b : UInt8) :
    Valid (Adalight.read intBits s b).1 := by
  obtain ⟨waiting, leds⟩ := s
  cases waiting with
  | magic i =>
    change Valid ⟨search i b, leds⟩
    unfold search
    by_cases more : (if magic[i]? = some b then i else 0) + 1 < magic.length
    · rw [if_pos more]
      exact Nat.le_of_lt_succ more
    · rw [if_neg more]
      trivial
  | hi | lo => trivial
  | chk hi lo =>
    change Valid (if b ≠ hi ^^^ lo ^^^ 0x55 then _ else _ : Receiver × List (List ColorRgb)).1
    split_ifs
    · exact Nat.zero_le 2
    · exact Valid.nextLed (numLeds_le hi lo)
  | red | green => exact valid
  | blue => exact Valid.nextLed valid.2

theorem ready_giveUp (waiting : Waiting) (leds : List ColorRgb) :
    Ready ⟨giveUp waiting, leds⟩ := by
  cases waiting with
  | magic => exact ⟨1, one_le_two, rfl⟩
  | hi | lo | chk | red | green | blue => exact ⟨0, Nat.zero_le 2, rfl⟩

theorem Ready.valid {s : Receiver} (ready : Ready s) : Valid s := by
  obtain ⟨waiting, leds⟩ := s
  obtain ⟨i, below, rfl⟩ := ready
  exact below

theorem Valid.awake {s : Adalight} (valid : Valid s.toReceiver) : Valid s.awake := by
  unfold Adalight.awake
  split_ifs
  · exact valid
  · exact (ready_giveUp _ _).valid

theorem Valid.step {s : Adalight} (valid : Valid s.toReceiver) (e : Event) :
    Valid (Adalight.step intBits s e).1.toReceiver := by
  cases e with
  | poll now later =>
    change Valid (s.poll now later).1.toReceiver
    unfold Adalight.poll
    split_ifs
    · exact valid
    · exact valid
  | byte b now => exact valid.awake.read b

theorem valid_start : Valid {} := Nat.zero_le 2

/-! Frames from a sketch that looks for the magic word. -/

theorem run_nextLed {colors leds : List ColorRgb} {idx : Nat}
    (inside : idx + colors.length ≤ leds.length) :
    let s := nextLed leds idx (idx + colors.length)
    let t := run (read intBits) s.1 (rawdata colors)
    t.1.waiting = .magic 0 ∧
      s.2 ++ t.2 = [shown (leds.take idx ++ colors ++ leds.drop (idx + colors.length))] := by
  induction colors generalizing leds idx with
  | nil =>
    have none : ¬ idx < idx + ([] : List ColorRgb).length := by simp
    rw [nextLed, if_neg none]
    refine ⟨rfl, ?_⟩
    simp [rawdata]
  | cons color rest ih =>
    rw [List.length_cons] at inside ⊢
    have size : (leds.set idx color).length = leds.length := List.length_set
    have count : idx + 1 + rest.length = idx + (rest.length + 1) := by omega
    have later := @ih (leds.set idx color) (idx + 1) (by omega)
    have cut : leds.set idx color = (leds.take idx ++ [color]) ++ leds.drop (idx + 1) := by
      rw [List.set_eq_take_append_cons_drop, if_pos (by omega), List.append_assoc]
      rfl
    have long : (leds.take idx ++ [color]).length = idx + 1 := by
      rw [List.length_append, List.length_take, List.length_singleton]
      omega
    have front : (leds.set idx color).take (idx + 1) = leds.take idx ++ [color] := by
      rw [cut, List.take_left' long]
    rw [count, front, List.drop_set_of_lt (by omega), List.append_assoc (leds.take idx)] at later
    rw [nextLed, if_pos (by omega)]
    exact later

theorem numLeds_of_le {n : Nat} (some : 1 ≤ n) (few : n ≤ maxLeds) (wide : 16 ≤ intBits) :
    numLeds intBits (UInt8.ofNat ((n - 1) / 256)) (UInt8.ofNat (n - 1)) = n := by
  have bits : (2 : Int) ^ 16 ≤ 2 ^ intBits := pow_le_pow_right₀ (by norm_num) wide
  have most : n ≤ 500 := few
  have count : 256 * (UInt8.ofNat ((n - 1) / 256)).toNat + (UInt8.ofNat (n - 1)).toNat + 1 = n := by
    simp
    omega
  have whole : ((n : Nat) : Int).bmod (2 ^ intBits) = n := by
    refine Int.bmod_eq_of_le_mul_two ?_ ?_
    all_goals
      push_cast
      omega
  rw [numLeds, count, whole, min_eq_right (by exact_mod_cast few), Int.toNat_natCast]

theorem run_header {s : Receiver} (ready : Ready s) {n : Nat} (some : 1 ≤ n) (few : n ≤ maxLeds)
    (wide : 16 ≤ intBits) :
    run (read intBits) s (header (n - 1)) = nextLed dark 0 n := by
  obtain ⟨waiting, leds⟩ := s
  obtain ⟨i, below, rfl⟩ := ready
  have sought : run (read intBits) ⟨.magic i, leds⟩ magic = (⟨.hi, leds⟩, []) := by
    interval_cases i <;> rfl
  have counted (hi lo : UInt8) : run (read intBits) ⟨.hi, leds⟩ [hi, lo, hi ^^^ lo ^^^ 0x55] =
      nextLed dark 0 (numLeds intBits hi lo) := by
    have checked : read intBits ⟨.chk hi lo, leds⟩ (hi ^^^ lo ^^^ 0x55) =
        nextLed dark 0 (numLeds intBits hi lo) := if_neg (fun wrong => wrong rfl)
    have first : read intBits ⟨.hi, leds⟩ hi = (⟨.lo hi, leds⟩, []) := rfl
    have second : read intBits ⟨.lo hi, leds⟩ lo = (⟨.chk hi lo, leds⟩, []) := rfl
    rw [run_cons, first, run_cons, second, run_cons, checked, run_nil, List.append_nil]
    rfl
  have split : header (n - 1) = magic ++ [UInt8.ofNat ((n - 1) / 256), UInt8.ofNat (n - 1),
      UInt8.ofNat ((n - 1) / 256) ^^^ UInt8.ofNat (n - 1) ^^^ 0x55] := rfl
  rw [split, run_append, sought, counted, numLeds_of_le some few wide]
  rfl

theorem run_message {s : Receiver} (ready : Ready s) {ledValues : List ColorRgb}
    (some : 1 ≤ ledValues.length) (few : ledValues.length ≤ maxLeds) (wide : 16 ≤ intBits) :
    (run (read intBits) s (message ledValues)).1.waiting = .magic 0 ∧
      (run (read intBits) s (message ledValues)).2 = [visible ledValues] := by
  have inside : 0 + ledValues.length ≤ dark.length := by rwa [zero_add, length_dark]
  obtain ⟨atStart, outputs⟩ := @run_nextLed intBits _ dark 0 inside
  rw [zero_add] at atStart outputs
  rw [message, run_append, run_header ready some few wide]
  exact ⟨atStart, outputs⟩

theorem run_silent {bytes : List UInt8} {waiting : Waiting} {leds : List ColorRgb}
    (idx numLeds : Nat)
    (colour : (∃ r g, waiting = .blue idx numLeds r g) ∨ (∃ r, waiting = .green idx numLeds r) ∨
      waiting = .red idx numLeds)
    (fewer : bytes.length < need ⟨waiting, leds⟩) :
    (run (read intBits) ⟨waiting, leds⟩ bytes).2 = [] := by
  induction bytes generalizing waiting leds idx with
  | nil => rfl
  | cons b rest ih =>
    rw [List.length_cons] at fewer
    rcases colour with ⟨r, g, rfl⟩ | ⟨r, rfl⟩ | rfl
    · simp only [need] at fewer
      have next : read intBits ⟨.blue idx numLeds r g, leds⟩ b =
          (⟨.red (idx + 1) numLeds, leds.set idx ⟨r, g, b⟩⟩, []) := if_pos (by omega)
      rw [run_cons, next]
      refine ih (idx + 1) (Or.inr (Or.inr rfl)) ?_
      simp only [need]
      omega
    · refine ih idx (Or.inl ⟨r, b, rfl⟩) ?_
      simp only [need] at fewer ⊢
      omega
    · refine ih idx (Or.inr (Or.inl ⟨b, rfl⟩)) ?_
      simp only [need] at fewer ⊢
      omega

theorem run_message_silent {s : Receiver} (ready : Ready s) {ledValues : List ColorRgb}
    (some : 1 ≤ ledValues.length) (few : ledValues.length ≤ maxLeds) (wide : 16 ≤ intBits) :
    (run (read intBits) s (message ledValues).dropLast).2 = [] := by
  have colours : rawdata ledValues ≠ [] := by
    rw [← List.length_pos_iff, rawdata_length]
    omega
  have first : nextLed dark 0 ledValues.length = (⟨.red 0 ledValues.length, dark⟩, []) :=
    if_pos some
  rw [message, List.dropLast_append_of_ne_nil colours, run_append,
    run_header ready some few wide, first]
  refine run_silent 0 _ (Or.inr (Or.inr rfl)) ?_
  rw [List.length_dropLast, rawdata_length]
  simp only [need]
  omega

/-! The sketch in time. While no wait times out it does what the bytes alone do, and
the time of the next timeout moves with the pictures. -/

def Event.byte? : Event → Option UInt8
  | .poll _ _ => none
  | .byte b _ => some b

def TimesOut (s : Adalight) : Event → Prop
  | .poll now _ => s.endTime < now
  | .byte _ _ => False

theorem run_inTime {s : Adalight} {events : List Event}
    (inTime : Meets (step intBits) (fun s e => ¬ s.TimesOut e) s events) :
    (run (step intBits) s events).1.awake =
        (run (read intBits) s.awake (events.filterMap Event.byte?)).1 ∧
      (run (step intBits) s events).2 =
        (run (read intBits) s.awake (events.filterMap Event.byte?)).2 := by
  induction events generalizing s with
  | nil => exact ⟨rfl, rfl⟩
  | cons e rest ih =>
    obtain ⟨now, later⟩ := inTime
    obtain ⟨awake, pictures⟩ := ih later
    cases e with
    | poll first second =>
      have still : step intBits s (.poll first second) = (s, []) := if_neg now
      rw [still] at awake pictures
      rw [run_cons, still]
      exact ⟨awake, pictures⟩
    | byte b time => exact ⟨awake, congrArg (_ ++ ·) pictures⟩

/-- The turns of the wait for a byte, and when the byte is there. -/
structure Arrival where
  polls : List (UInt32 × UInt32) := []
  now : UInt32

def Arrival.waits (arrival : Arrival) : List Event :=
  arrival.polls.map fun clock => .poll clock.1 clock.2

def arrive : List UInt8 → (Nat → Arrival) → List Event
  | [], _ => []
  | b :: rest, arrival =>
    (arrival 0).waits ++ .byte b (arrival 0).now :: arrive rest fun k => arrival (k + 1)

@[simp] theorem byte?_waits (arrival : Arrival) : arrival.waits.filterMap Event.byte? = [] := by
  simp [Arrival.waits, Event.byte?]

theorem byte?_arrive (bytes : List UInt8) (arrival : Nat → Arrival) :
    (arrive bytes arrival).filterMap Event.byte? = bytes := by
  induction bytes generalizing arrival with
  | nil => rfl
  | cons b rest ih =>
    rw [arrive, List.filterMap_append, byte?_waits, List.nil_append, List.filterMap_cons, ih]
    rfl

theorem run_waits {s : Adalight} {polls : List (UInt32 × UInt32)}
    (inTime : ∀ clock ∈ polls, ¬ s.endTime < clock.1) :
    run (step intBits) s (polls.map fun clock => .poll clock.1 clock.2) = (s, []) ∧
      Meets (step intBits) (fun s e => ¬ s.TimesOut e) s
        (polls.map fun clock => .poll clock.1 clock.2) := by
  induction polls with
  | nil => exact ⟨rfl, trivial⟩
  | cons clock rest ih =>
    have now := inTime clock List.mem_cons_self
    have still : step intBits s (.poll clock.1 clock.2) = (s, []) := if_neg now
    obtain ⟨waits, meets⟩ := ih fun other mem => inTime other (List.mem_cons_of_mem clock mem)
    rw [List.map_cons, run_cons, Meets, still, waits]
    exact ⟨rfl, now, meets⟩

theorem run_arrive {s : Adalight} {bytes : List UInt8} {b : UInt8} {arrival : Nat → Arrival}
    (silent : (run (read intBits) s.awake bytes).2 = [])
    (inTime : ∀ k ≤ bytes.length, ∀ clock ∈ (arrival k).polls, ¬ s.endTime < clock.1) :
    Meets (step intBits) (fun s e => ¬ s.TimesOut e) s (arrive (bytes ++ [b]) arrival) ∧
      (run (step intBits) s (arrive (bytes ++ [b]) arrival)).1.endTime =
        if (read intBits (run (read intBits) s.awake bytes).1 b).2 = [] then s.endTime
        else (arrival bytes.length).now + offTimeout := by
  obtain ⟨waits, meets⟩ := @run_waits intBits s _ (inTime 0 (Nat.zero_le _))
  induction bytes generalizing s arrival with
  | nil =>
    rw [List.nil_append, arrive, arrive, meets_append, run_append, Arrival.waits, waits]
    exact ⟨⟨meets, fun late => late, trivial⟩, rfl⟩
  | cons c rest ih =>
    obtain ⟨first, silent⟩ := List.append_eq_nil_iff.mp silent
    have kept : (step intBits s (.byte c (arrival 0).now)).1.endTime = s.endTime := if_pos first
    have later := @ih (step intBits s (.byte c (arrival 0).now)).1 (fun k => arrival (k + 1)) silent
      (fun k below => by
        rw [kept]
        exact inTime (k + 1) (Nat.succ_le_succ below))
    obtain ⟨next, nextMeets⟩ := @run_waits intBits (step intBits s (.byte c (arrival 0).now)).1
      (arrival 1).polls (by
        rw [kept]
        exact inTime 1 (Nat.succ_le_succ (Nat.zero_le _)))
    obtain ⟨laterMeets, endTime⟩ := later next nextMeets
    rw [List.cons_append, arrive, meets_append, run_append, Arrival.waits, waits]
    refine ⟨⟨meets, fun late => late, laterMeets⟩, endTime.trans ?_⟩
    rw [kept]
    rfl

theorem run_write {s : Adalight} (ready : Ready s.awake) {ledValues : List ColorRgb}
    (some : 1 ≤ ledValues.length) (few : ledValues.length ≤ maxLeds) (wide : 16 ≤ intBits)
    {arrival : Nat → Arrival} (inTime : ∀ k < (message ledValues).length,
      ∀ clock ∈ (arrival k).polls, ¬ s.endTime < clock.1) :
    Ready (run (step intBits) s (arrive (message ledValues) arrival)).1.awake ∧
      (run (step intBits) s (arrive (message ledValues) arrival)).2 = [visible ledValues] ∧
      (run (step intBits) s (arrive (message ledValues) arrival)).1.endTime =
        (arrival ((message ledValues).length - 1)).now + offTimeout := by
  have filled : message ledValues ≠ [] := nofun
  have silent := run_message_silent ready some few wide
  obtain ⟨atStart, shows⟩ := run_message ready some few wide
  have split := List.dropLast_append_getLast filled
  have short : (message ledValues).dropLast.length = (message ledValues).length - 1 :=
    List.length_dropLast
  obtain ⟨meets, endTime⟩ := run_arrive (b := (message ledValues).getLast filled) silent
    fun k below => inTime k (by
      rw [length_message] at short ⊢
      omega)
  rw [split] at meets endTime
  obtain ⟨awake, pictures⟩ := run_inTime meets
  rw [byte?_arrive] at awake pictures
  refine ⟨⟨0, Nat.zero_le 2, by rw [awake, atStart]⟩, pictures.trans shows, endTime.trans ?_⟩
  rw [← split, run_append, silent, List.nil_append] at shows
  have last : (read intBits (run (read intBits) s.awake (message ledValues).dropLast).1
      ((message ledValues).getLast filled)).2 ≠ [] := by
    rw [run_cons, run_nil, List.append_nil] at shows
    rw [shows]
    exact List.cons_ne_nil _ _
  rw [if_neg last, short]

/-! A sketch that is inside a frame it believes in. -/

def Fresh (s : Receiver) : Prop := s.waiting = .magic 0

/-- Nothing behind the magic word looks like its end. -/
def Quiet (ledValues : List ColorRgb) : Prop :=
  ¬ magic.tail <:+: (header (ledValues.length - 1)).drop magic.length ++ rawdata ledValues

instance (ledValues : List ColorRgb) : Decidable (Quiet ledValues) :=
  inferInstanceAs (Decidable (¬ _ <:+: _))

theorem run_search {i : Nat} {bytes : List UInt8} {leds : List ColorRgb}
    (quiet : (i = 1 ∧ ¬ magic.tail <:+: bytes) ∨ (i = 2 ∧ ¬ magic.tail <:+: 100 :: bytes)) :
    ∃ j ≤ 2, run (read intBits) ⟨.magic i, leds⟩ bytes = (⟨.magic j, leds⟩, []) := by
  induction bytes generalizing i with
  | nil => exact ⟨i, by omega, rfl⟩
  | cons b rest ih =>
    have next : read intBits ⟨.magic i, leds⟩ b = (⟨search i b, leds⟩, []) := rfl
    rw [run_cons, next]
    rcases quiet with ⟨rfl, quiet⟩ | ⟨rfl, quiet⟩
    · by_cases second : b = 100
      · subst second
        exact ih (Or.inr ⟨rfl, quiet⟩)
      · have again : search 1 b = .magic 1 := by
          simp [search, magic, Ne.symm second]
        rw [again]
        exact ih (Or.inl ⟨rfl, fun later => quiet (List.infix_cons later)⟩)
    · have third : b ≠ 97 := by
        rintro rfl
        exact quiet ⟨[], rest, rfl⟩
      have again : search 2 b = .magic 1 := by
        simp [search, magic, Ne.symm third]
      rw [again]
      exact ih (Or.inl ⟨rfl, fun later => quiet (List.infix_cons (List.infix_cons later))⟩)

theorem run_fresh {s : Receiver} (fresh : Fresh s) {bytes : List UInt8}
    (quiet : ¬ magic.tail <:+: bytes.tail) :
    Ready (run (read intBits) s bytes).1 ∧ (run (read intBits) s bytes).2 = [] := by
  obtain ⟨waiting, leds⟩ := s
  obtain rfl : waiting = .magic 0 := fresh
  cases bytes with
  | nil => exact ⟨⟨0, Nat.zero_le 2, rfl⟩, rfl⟩
  | cons b rest =>
    have next : read intBits ⟨.magic 0, leds⟩ b = (⟨.magic 1, leds⟩, []) := by
      have sought : search 0 b = .magic 1 := by
        rw [search, ite_self]
        rfl
      rw [← sought]
      rfl
    obtain ⟨j, below, found⟩ : ∃ j ≤ 2, run (read intBits) ⟨.magic 1, leds⟩ rest =
        (⟨.magic j, leds⟩, []) := run_search (Or.inl ⟨rfl, quiet⟩)
    rw [run_cons, next, found]
    exact ⟨⟨j, below, rfl⟩, rfl⟩

theorem infix_message_tail {ledValues : List ColorRgb} (quiet : Quiet ledValues)
    {bytes : List UInt8} (rest : bytes <:+ (message ledValues).tail) :
    ¬ magic.tail <:+: bytes.tail := by
  have behind : (message ledValues).tail = 100 :: 97 ::
      ((header (ledValues.length - 1)).drop magic.length ++ rawdata ledValues) := rfl
  have inner : bytes.tail <:+ 97 ::
      ((header (ledValues.length - 1)).drop magic.length ++ rawdata ledValues) := by
    rw [behind] at rest
    rcases List.suffix_cons_iff.mp rest with rfl | inside
    · exact List.suffix_rfl
    · exact (List.tail_suffix bytes).trans inside
  intro found
  rcases List.infix_cons_iff.mp (found.trans inner.isInfix) with ⟨_, same⟩ | later
  · exact absurd (List.cons.inj same).1 (by decide)
  · exact quiet later

theorem nextLed_cases (leds : List ColorRgb) {idx numLeds : Nat} (few : numLeds ≤ maxLeds) :
    (Fresh (nextLed leds idx numLeds).1 ∧ (nextLed leds idx numLeds).2.length ≤ 1) ∨
      (Valid (nextLed leds idx numLeds).1 ∧ ¬ Ready (nextLed leds idx numLeds).1 ∧
        need (nextLed leds idx numLeds).1 = 3 * (numLeds - idx) ∧ idx < numLeds ∧
        (nextLed leds idx numLeds).2 = []) := by
  rw [nextLed]
  split_ifs with more
  · exact Or.inr ⟨⟨more, few⟩, nofun, rfl, more, rfl⟩
  · exact Or.inl ⟨rfl, le_rfl⟩

theorem need_pos {s : Receiver} (valid : Valid s) (inside : ¬ Ready s) : 0 < need s := by
  obtain ⟨waiting, leds⟩ := s
  cases waiting with
  | magic i => exact absurd ⟨i, valid, rfl⟩ inside
  | hi | lo | chk => exact Nat.succ_pos _
  | red | green | blue =>
    obtain ⟨more, -⟩ := valid
    simp only [need]
    omega

theorem need_le {s : Receiver} (valid : Valid s) : need s ≤ 3 * maxLeds + 3 := by
  obtain ⟨waiting, leds⟩ := s
  cases waiting with
  | magic | hi | lo | chk =>
    simp only [need]
    omega
  | red | green | blue =>
    obtain ⟨-, few⟩ := valid
    simp only [need]
    omega

theorem resyncs (n : Nat) :
    Resyncs (read intBits) Valid Ready Fresh need
      (fun ledValues => ledValues.length = n ∧ Quiet ledValues) message where
  fresh_ready fresh := ⟨0, Nat.zero_le 2, fresh⟩
  need_pos := need_pos
  inside {s} valid inside b := by
    obtain ⟨waiting, leds⟩ := s
    cases waiting with
    | magic i => exact absurd ⟨i, valid, rfl⟩ inside
    | hi | lo => exact Or.inr ⟨trivial, nofun, Nat.lt_succ_self _, rfl⟩
    | chk hi lo =>
      by_cases wrong : b ≠ hi ^^^ lo ^^^ 0x55
      · have next : read intBits ⟨.chk hi lo, leds⟩ b = (⟨.magic 0, leds⟩, []) := if_pos wrong
        rw [next]
        exact Or.inl ⟨rfl, Nat.zero_le 1⟩
      · have next : read intBits ⟨.chk hi lo, leds⟩ b =
            nextLed dark 0 (numLeds intBits hi lo) := if_neg wrong
        have few : numLeds intBits hi lo ≤ maxLeds := numLeds_le hi lo
        rw [next]
        refine (nextLed_cases dark few).imp_right fun ⟨isValid, isInside, count, _, silent⟩ =>
          ⟨isValid, isInside, ?_, silent⟩
        rw [count]
        simp only [need]
        omega
    | red idx numLeds | green idx numLeds r =>
      refine Or.inr ⟨valid, nofun, ?_, rfl⟩
      obtain ⟨more, -⟩ := valid
      simp only [need, read]
      omega
    | blue idx numLeds r g =>
      have next : read intBits ⟨.blue idx numLeds r g, leds⟩ b =
          nextLed (leds.set idx ⟨r, g, b⟩) (idx + 1) numLeds := rfl
      rw [next]
      refine (nextLed_cases _ valid.2).imp_right fun ⟨isValid, isInside, count, more, silent⟩ =>
        ⟨isValid, isInside, ?_, silent⟩
      rw [count]
      simp only [need]
      omega
  quiet {ledValues s front rest} good fresh some joined := by
    refine run_fresh fresh (infix_message_tail good.2 ?_)
    cases front with
    | nil => exact absurd rfl some
    | cons b first =>
      rw [← joined]
      exact List.suffix_append first rest

end HyperionNg.Adalight
