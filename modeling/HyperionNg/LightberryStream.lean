import HyperionNg.Lightberry

/-! What the LightBerry sketch issues, as a function of the bytes it is sent. It
does not depend on when the bytes arrive and when the turns are taken. -/

namespace HyperionNg.Lightberry

open Library RingBuffer

/-- What is done for the frames; the rest is the timers'. -/
def Output.isData : Output → Bool
  | .issue _ | .latch => true
  | .ack | .off => false

def header? : List UInt8 → Option (List UInt8 × Option Nat)
  | a :: d :: c :: hi :: lo :: chk :: rest => some (
    if a ≠ 65 then (d :: c :: hi :: lo :: chk :: rest, none)
    else if d ≠ 100 then (c :: hi :: lo :: chk :: rest, none)
    else if chk = hi ^^^ lo ^^^ 0x55 then (rest, some (frameSize hi lo))
    else (hi :: lo :: chk :: rest, none))
  | _ => none

theorem header?_append {bytes left : List UInt8} {next : Option Nat}
    (found : header? bytes = some (left, next)) (more : List UInt8) :
    header? (bytes ++ more) = some (left ++ more, next) := by
  match bytes, found with
  | a :: d :: c :: hi :: lo :: chk :: rest, found =>
    simp only [header?, List.cons_append, Option.some.injEq] at found ⊢
    split_ifs at found ⊢ <;> (obtain ⟨rfl, rfl⟩ := Prod.mk.inj found; rfl)

theorem length_header? {bytes left : List UInt8} {next : Option Nat}
    (found : header? bytes = some (left, next)) : left.length < bytes.length ∧
      (next ≠ none → left.length + 6 = bytes.length) := by
  match bytes, found with
  | a :: d :: c :: hi :: lo :: chk :: rest, found =>
    simp only [header?, Option.some.injEq] at found
    split_ifs at found <;> obtain ⟨rfl, rfl⟩ := Prod.mk.inj found
    all_goals
      refine ⟨?_, fun some => ?_⟩
      · simp only [List.length_cons]
        omega
      · first
        | exact absurd rfl some
        | rfl

/-- What is issued for some bytes, where a header is looked for or so many bytes
of a frame are outstanding. -/
def parse (remaining : Option Nat) (bytes : List UInt8) : List Output :=
  match remaining with
  | none =>
    match _found : header? bytes with
    | none => []
    | some (left, next) => parse next left
  | some 0 => .latch :: parse none bytes
  | some (n + 1) =>
    match bytes with
    | [] => []
    | b :: rest => .issue b :: parse (some n) rest
termination_by 2 * bytes.length + (if remaining = none then 0 else 1)
decreasing_by
  · obtain ⟨less, whole⟩ := length_header? _found
    split_ifs
    · omega
    · have := whole ‹_›
      omega
  · simp
  · simp

theorem parse_of_header? {bytes left : List UInt8} {next : Option Nat}
    (found : header? bytes = some (left, next)) : parse none bytes = parse next left := by
  rw [parse]
  split
  · next none => exact absurd (none.symm.trans found) nofun
  · next found' =>
    obtain ⟨rfl, rfl⟩ := Prod.mk.inj (Option.some.inj (found'.symm.trans found))
    rfl

theorem parse_zero (bytes : List UInt8) : parse (some 0) bytes = .latch :: parse none bytes := by
  conv_lhs => rw [parse]

private theorem parse_cons (n : Nat) (b : UInt8) (rest : List UInt8) :
    parse (some (n + 1)) (b :: rest) = .issue b :: parse (some n) rest := by
  rw [parse]

def queue (s : Lightberry) : List UInt8 := contents s.buffer s.indexOut s.bytesBuffered

def phase (s : Lightberry) : Option Nat :=
  match s.mode with
  | .header => none
  | .hold | .data => some s.bytesRemaining

structure Inv (s : Lightberry) : Prop where
  indexIn : s.indexIn = behind s.indexOut s.bytesBuffered
  room : s.bytesBuffered ≤ 256
  short : s.hold ≤ 1000

structure SameTask (s t : Lightberry) : Prop where
  mode : t.mode = s.mode
  hold : t.hold = s.hold
  startTime : t.startTime = s.startTime
  bytesRemaining : t.bytesRemaining = s.bytesRemaining

theorem SameTask.phase {s t : Lightberry} (same : SameTask s t) : phase t = phase s := by
  rw [Lightberry.phase, Lightberry.phase, same.mode, same.bytesRemaining]

theorem idle_spec (s : Lightberry) (t : Nat) :
    (∃ lastByteTime lastAckTime, (s.idle t).1 = { s with lastByteTime, lastAckTime }) ∧
      (s.idle t).2.filter Output.isData = [] := by
  refine ⟨⟨_, _, rfl⟩, ?_⟩
  simp only [idle, List.filter_append]
  split_ifs <;> rfl

theorem readSerial_spec {s : Lightberry} (inv : Inv s) (serial : List UInt8) (t : Nat) :
    ∃ next left outputs, s.readSerial serial t = (next, left, outputs) ∧ Inv next ∧
      SameTask s next ∧ outputs.filter Output.isData = [] ∧
      queue next ++ left = queue s ++ serial ∧
      (left.length + 1 = serial.length ∧ next.bytesBuffered = s.bytesBuffered + 1 ∨
        left = serial ∧ next.bytesBuffered = s.bytesBuffered ∧
          (serial = [] ∨ s.bytesBuffered = 256)) := by
  obtain ⟨⟨lastByteTime, lastAckTime, waits⟩, silent⟩ := idle_spec s t
  have kept : Inv (s.idle t).1 ∧ SameTask s (s.idle t).1 ∧ queue (s.idle t).1 = queue s ∧
      (s.idle t).1.bytesBuffered = s.bytesBuffered := by
    rw [waits]
    exact ⟨⟨inv.indexIn, inv.room, inv.short⟩, ⟨rfl, rfl, rfl, rfl⟩, rfl, rfl⟩
  by_cases room : s.bytesBuffered < 256
  · cases serial with
    | nil =>
      have none : s.readSerial [] t = ((s.idle t).1, [], (s.idle t).2) := by
        rw [readSerial.eq_def, if_pos room]
      rw [none]
      exact ⟨_, _, _, rfl, kept.1, kept.2.1, silent, by rw [kept.2.2.1],
        Or.inr ⟨rfl, kept.2.2.2, Or.inl rfl⟩⟩
    | cons c serial =>
      let next : Lightberry := { s with
        buffer := Function.update s.buffer s.indexIn c
        indexIn := s.indexIn + 1
        bytesBuffered := s.bytesBuffered + 1
        lastByteTime := t
        lastAckTime := t }
      have taken : s.readSerial (c :: serial) t = (next, serial, []) := by
        rw [readSerial.eq_def, if_pos room]
      have placed : next.indexIn = behind next.indexOut next.bytesBuffered := by
        change s.indexIn + 1 = behind s.indexOut (s.bytesBuffered + 1)
        rw [behind_succ, inv.indexIn]
      have longer : queue next = queue s ++ [c] := by
        have written := contents_update s.buffer s.indexOut room c
        rw [← inv.indexIn] at written
        exact written
      rw [taken]
      refine ⟨next, serial, [], rfl, ⟨placed, Nat.succ_le_of_lt room, inv.short⟩,
        ⟨rfl, rfl, rfl, rfl⟩, rfl, ?_, Or.inl ⟨rfl, rfl⟩⟩
      rw [longer, List.append_assoc]
      rfl
  · have full : s.readSerial serial t = ((s.idle t).1, serial, (s.idle t).2) := by
      rw [readSerial.eq_def, if_neg room]
    rw [full]
    have filled : s.bytesBuffered = 256 := by
      have most := inv.room
      omega
    exact ⟨_, _, _, rfl, kept.1, kept.2.1, silent, by rw [kept.2.2.1],
      Or.inr ⟨rfl, kept.2.2.2, Or.inr filled⟩⟩

def skip (s : Lightberry) (j : Nat) : Lightberry :=
  { s with indexOut := behind s.indexOut j, bytesBuffered := s.bytesBuffered - j }

theorem Inv.skip {s : Lightberry} (inv : Inv s) {j : Nat} (enough : j ≤ s.bytesBuffered) :
    Inv (s.skip j) := by
  refine ⟨?_, (Nat.sub_le s.bytesBuffered j).trans inv.room, inv.short⟩
  change s.indexIn = behind (behind s.indexOut j) (s.bytesBuffered - j)
  rw [inv.indexIn, ← behind_add, Nat.add_sub_cancel' enough]

theorem queue_skip {s : Lightberry} {j : Nat} (enough : j ≤ s.bytesBuffered) :
    queue (s.skip j) = (queue s).drop j := by
  have cut := contents_append s.buffer s.indexOut j (s.bytesBuffered - j)
  rw [Nat.add_sub_cancel' enough] at cut
  rw [queue, queue, cut, List.drop_left' (length_contents _ _ _)]
  rfl

theorem seekHeader_cases (s : Lightberry) (enough : headerSize ≤ s.bytesBuffered) :
    (∃ j, 0 < j ∧ j ≤ 3 ∧ s.seekHeader = s.skip j ∧
        header? (queue s) = some ((queue s).drop j, none)) ∨
      ∃ n, s.seekHeader = { s.skip 6 with bytesRemaining := n, mode := .hold } ∧
        header? (queue s) = some ((queue s).drop 6, some n) := by
  obtain ⟨k, count⟩ := Nat.exists_eq_add_of_le enough
  have front : queue s = s.buffer s.indexOut :: s.buffer (s.indexOut + 1) ::
      s.buffer (s.indexOut + 1 + 1) :: s.buffer (s.indexOut + 1 + 1 + 1) ::
      s.buffer (s.indexOut + 1 + 1 + 1 + 1) :: s.buffer (s.indexOut + 1 + 1 + 1 + 1 + 1) ::
      contents s.buffer (s.indexOut + 1 + 1 + 1 + 1 + 1 + 1) k := by
    rw [queue, count, Nat.add_comm]
    rfl
  rw [front, header?, seekHeader, if_pos enough]
  by_cases first : s.buffer s.indexOut = 65
  · by_cases second : s.buffer (s.indexOut + 1) = 100
    · have reached : compare s.buffer magic s.indexOut 0 = (s.indexOut + 1 + 1 + 1, 3) := by
        simp [compare, magic, first, second]
      rw [reached, if_neg (not_not.mpr first), if_neg (not_not.mpr second)]
      by_cases sum : s.buffer (s.indexOut + 1 + 1 + 1 + 1 + 1) =
          s.buffer (s.indexOut + 1 + 1 + 1) ^^^ s.buffer (s.indexOut + 1 + 1 + 1 + 1) ^^^ 0x55
      · right
        refine ⟨_, ?_, by rw [if_pos sum]; rfl⟩
        simp only [magic, List.length_cons, List.length_nil, sum, if_true]
        rfl
      · left
        refine ⟨3, by omega, le_rfl, ?_, by rw [if_neg sum]; rfl⟩
        simp only [magic, List.length_cons, List.length_nil, sum, if_false, if_true]
        rfl
    · left
      have reached : compare s.buffer magic s.indexOut 0 = (s.indexOut + 1 + 1, 2) := by
        simp [compare, magic, first, second]
      refine ⟨2, by omega, by omega, ?_, by rw [if_neg (not_not.mpr first), if_pos second]; rfl⟩
      rw [reached]
      rfl
  · left
    have reached : compare s.buffer magic s.indexOut 0 = (s.indexOut + 1, 1) := by
      simp [compare, magic, first]
    refine ⟨1, by omega, by omega, ?_, by rw [if_pos first]; rfl⟩
    rw [reached]
    rfl

theorem issueByte_spec {s : Lightberry} (inv : Inv s) (data : s.mode = .data) (micros : Nat)
    (more : List UInt8) :
    Inv (s.issueByte micros).1 ∧
      (s.issueByte micros).2.filter Output.isData ++
          parse (phase (s.issueByte micros).1) (queue (s.issueByte micros).1 ++ more) =
        parse (phase s) (queue s ++ more) := by
  have task : phase s = some s.bytesRemaining := by
    rw [phase, data]
  rw [issueByte, task]
  split_ifs with open_ filled
  · obtain ⟨n, outstanding⟩ := Nat.exists_eq_succ_of_ne_zero open_.ne'
    obtain ⟨k, count⟩ := Nat.exists_eq_succ_of_ne_zero filled.ne'
    have kept := inv.skip (j := 1) filled
    have front : queue s = s.buffer s.indexOut :: queue (s.skip 1) := by
      rw [queue_skip filled, queue, count]
      rfl
    refine ⟨⟨kept.indexIn, kept.room, kept.short⟩, ?_⟩
    rw [front, outstanding, List.cons_append, parse_cons]
    change [Output.issue _] ++ parse (phase { s.skip 1 with bytesRemaining := n + 1 - 1 })
      (queue (s.skip 1) ++ more) = _
    have rest : phase { s.skip 1 with bytesRemaining := n + 1 - 1 } = some n := by
      rw [phase]
      change (match s.mode with | .header => none | .hold | .data => some n) = _
      rw [data]
    rw [rest]
    rfl
  · exact ⟨inv, by rw [task]; rfl⟩
  · have ended : s.bytesRemaining = 0 := by omega
    rw [ended, parse_zero]
    exact ⟨⟨inv.indexIn, inv.room, le_rfl⟩, rfl⟩

theorem act_spec {s : Lightberry} (inv : Inv s) (micros : Nat) (more : List UInt8) :
    Inv (s.act micros).1 ∧
      (s.act micros).2.filter Output.isData ++
          parse (phase (s.act micros).1) (queue (s.act micros).1 ++ more) =
        parse (phase s) (queue s ++ more) := by
  rw [act.eq_def]
  cases mode : s.mode with
  | header =>
    have task : phase s = none := by
      rw [phase, mode]
    rw [task]
    by_cases enough : headerSize ≤ s.bytesBuffered
    · have six : 6 ≤ s.bytesBuffered := enough
      rcases seekHeader_cases s enough with ⟨j, -, few, sought, found⟩ | ⟨n, sought, found⟩
      · have still : phase (s.skip j) = none := task
        have inside : j ≤ s.bytesBuffered := by omega
        refine ⟨sought ▸ inv.skip inside, ?_⟩
        rw [parse_of_header? (header?_append found more)]
        change parse (phase s.seekHeader) (queue s.seekHeader ++ more) = _
        rw [sought, still, queue_skip inside]
      · have kept := inv.skip six
        refine ⟨sought ▸ ⟨kept.indexIn, kept.room, kept.short⟩, ?_⟩
        rw [parse_of_header? (header?_append found more)]
        change parse (phase s.seekHeader) (queue s.seekHeader ++ more) = _
        rw [sought, ← queue_skip six]
        rfl
    · have stays : s.seekHeader = s := by
        rw [seekHeader, if_neg enough]
      rw [stays, task]
      exact ⟨inv, rfl⟩
  | hold =>
    have task : phase s = some s.bytesRemaining := by
      rw [phase, mode]
    split_ifs with waits
    · exact ⟨inv, rfl⟩
    · obtain ⟨kept, front⟩ := issueByte_spec (s := { s with mode := .data })
        ⟨inv.indexIn, inv.room, inv.short⟩ rfl micros more
      exact ⟨kept, front.trans (by rw [task]; rfl)⟩
  | data => exact issueByte_spec inv mode micros more

theorem turn_spec {s : Lightberry} (inv : Inv s) (serial : List UInt8) (millis micros : Nat)
    (more : List UInt8) :
    Inv (s.turn serial millis micros).1 ∧
      (s.turn serial millis micros).2.2.filter Output.isData ++
          parse (phase (s.turn serial millis micros).1)
            (queue (s.turn serial millis micros).1 ++
              ((s.turn serial millis micros).2.1 ++ more)) =
        parse (phase s) (queue s ++ (serial ++ more)) := by
  obtain ⟨next, left, outputs, taken, kept, same, silent, joined, -⟩ :=
    readSerial_spec inv serial millis
  have turned : s.turn serial millis micros =
      ((next.act micros).1, left, outputs ++ (next.act micros).2) := by
    rw [turn, taken]
  obtain ⟨keeps, front⟩ := act_spec kept micros (left ++ more)
  rw [turned, List.filter_append, silent]
  refine ⟨keeps, front.trans ?_⟩
  rw [same.phase, ← List.append_assoc, joined, List.append_assoc]

/-! A turn gets on with what has arrived, once the latch is over. -/

def weight (s : Lightberry) : Nat := 2 * s.bytesBuffered + if s.mode = .header then 0 else 1

end HyperionNg.Lightberry
