import HyperionNg.ProtoClientConnection
import HyperionNg.ProtoConnection
import HyperionNg.Library.Backlog

/-! Streams of proto frames. Each read takes one message at most, so the frames
are a queue with one place in each read: whether all of them are taken depends
on how many are complete by which read. -/

namespace HyperionNg

open Library Library.Execution Backlog

namespace Proto

structure Reader where
  receiveBuffer : List UInt8 := []
  taken : List (List UInt8) := []

def Reader.read (r : Reader) (bytes : List UInt8) : Reader :=
  match nextMessage (r.receiveBuffer ++ bytes) with
  | none => { r with receiveBuffer := r.receiveBuffer ++ bytes }
  | some (body, rest) => ⟨rest, r.taken ++ [body]⟩

/-- The number of messages that are taken for complete among `n` bytes. An
empty one needs a further byte behind it, and a beginning whose size wraps
around is taken for one. -/
def ready : List Body → List UInt8 → Nat → Nat
  | [], tail, n => if Wraps tail ∧ 5 ≤ n then 1 else 0
  | body :: rest, tail, n =>
    if 4 + body.val.length ≤ n ∧ 5 ≤ n then ready rest tail (n - (4 + body.val.length)) + 1
    else 0

/-- The messages ready by each read, behind `n` buffered bytes. -/
def arrivals (frames : List Body) (tail : List UInt8) : Nat → List (List UInt8) → List Nat
  | _, [] => []
  | n, bytes :: reads =>
    ready frames tail (n + bytes.length) :: arrivals frames tail (n + bytes.length) reads

def stream (frames : List Body) (tail : List UInt8) : List UInt8 :=
  frames.flatMap frame ++ tail

@[simp] theorem stream_nil (tail : List UInt8) : stream [] tail = tail := rfl

theorem stream_cons (body : Body) (frames : List Body) (tail : List UInt8) :
    stream (body :: frames) tail = frame body ++ stream frames tail := by
  simp [stream]

theorem stream_eq_nil_iff {frames : List Body} : stream frames [] = [] ↔ frames = [] := by
  cases frames with
  | nil => simp
  | cons body frames =>
    refine iff_of_false (fun empty => ?_) (by simp)
    have length := congrArg List.length empty
    rw [stream_cons, List.length_append, frame_length] at length
    simp at length

@[simp] theorem arrivals_length (frames : List Body) (tail : List UInt8) (n : Nat)
    (reads : List (List UInt8)) : (arrivals frames tail n reads).length = reads.length := by
  induction reads generalizing n with
  | nil => rfl
  | cons bytes reads ih => simp [arrivals, ih]

theorem arrivals_getElem (frames : List Body) (tail : List UInt8) (n : Nat)
    (reads : List (List UInt8)) (i : Nat) (h : i < (arrivals frames tail n reads).length) :
    (arrivals frames tail n reads)[i] =
      ready frames tail (n + (reads.take (i + 1)).flatten.length) := by
  induction reads generalizing n i with
  | nil => simp [arrivals] at h
  | cons bytes reads ih =>
    cases i with
    | zero => simp [arrivals]
    | succ i =>
      have later := ih (n + bytes.length) i (by simpa [arrivals] using h)
      simp only [arrivals, List.getElem_cons_succ, later, List.take_succ_cons,
        List.flatten_cons, List.length_append, Nat.add_assoc]

theorem ready_mono (frames : List Body) (tail : List UInt8) {m n : Nat} (le : m ≤ n) :
    ready frames tail m ≤ ready frames tail n := by
  induction frames generalizing m n with
  | nil =>
    unfold ready
    split_ifs with early late late
    · exact le_rfl
    · exact absurd ⟨early.1, early.2.trans le⟩ late
    · exact Nat.zero_le 1
    · exact le_rfl
  | cons body rest ih =>
    have later := ih (Nat.sub_le_sub_right le (4 + body.val.length))
    unfold ready
    split_ifs <;> omega

theorem arrivals_sorted (frames : List Body) (tail : List UInt8) (n : Nat)
    (reads : List (List UInt8)) : (arrivals frames tail n reads).Pairwise (· ≤ ·) := by
  rw [List.pairwise_iff_getElem]
  intro i j hi hj lt
  rw [arrivals_getElem, arrivals_getElem]
  refine ready_mono frames tail (Nat.add_le_add_left ?_ n)
  exact ((List.take_prefix_take_left (by omega)).flatten).length_le

theorem arrivals_cons_of_ready {body : Body} (frames : List Body) (tail : List UInt8) {n : Nat}
    (whole : 4 + body.val.length ≤ n) (some : 5 ≤ n) (reads : List (List UInt8)) :
    arrivals (body :: frames) tail n reads =
      (arrivals frames tail (n - (4 + body.val.length)) reads).map (· + 1) := by
  induction reads generalizing n with
  | nil => rfl
  | cons bytes reads ih =>
    have rest : n + bytes.length - (4 + body.val.length) =
        n - (4 + body.val.length) + bytes.length := by omega
    have more : 4 + body.val.length ≤ n + bytes.length ∧ 5 ≤ n + bytes.length := by omega
    simp only [arrivals, ready, if_pos more, rest, List.map_cons, ih more.1 more.2]

theorem Reader.read_eq_none {r : Reader} {bytes : List UInt8}
    (waits : nextMessage (r.receiveBuffer ++ bytes) = none) :
    r.read bytes = ⟨r.receiveBuffer ++ bytes, r.taken⟩ := by
  rw [read, waits]

theorem Reader.read_eq_some {r : Reader} {bytes body rest : List UInt8}
    (whole : nextMessage (r.receiveBuffer ++ bytes) = some (body, rest)) :
    r.read bytes = ⟨rest, r.taken ++ [body]⟩ := by
  rw [read, whole]

theorem Reader.taken_prefix (reads : List (List UInt8)) (r : Reader) :
    r.taken <+: (reads.foldl Reader.read r).taken := by
  induction reads generalizing r with
  | nil => exact List.prefix_rfl
  | cons bytes reads ih =>
    refine List.IsPrefix.trans ?_ (ih (r.read bytes))
    cases next : nextMessage (r.receiveBuffer ++ bytes) with
    | none => rw [read_eq_none next]
    | some split =>
      rw [read_eq_some next]
      exact List.prefix_append _ _

theorem nextMessage_stream {body : Body} {frames : List Body} {tail receiveBuffer more : List UInt8}
    (sent : receiveBuffer ++ more = stream (body :: frames) tail)
    (complete : 4 + body.val.length ≤ receiveBuffer.length ∧ 5 ≤ receiveBuffer.length) :
    ∃ rest, nextMessage receiveBuffer = some (body.val, rest) ∧
      rest ++ more = stream frames tail ∧
      rest.length = receiveBuffer.length - (4 + body.val.length) := by
  rw [stream_cons] at sent
  obtain ⟨rest, rfl⟩ : frame body <+: receiveBuffer := by
    refine List.prefix_of_prefix_length_le ⟨_, rfl⟩ ⟨_, sent⟩ ?_
    rw [frame_length]
    exact complete.1
  rw [List.append_assoc] at sent
  have length : (frame body ++ rest).length = 4 + body.val.length + rest.length := by
    rw [List.length_append, frame_length]
  rw [length] at complete ⊢
  exact ⟨rest, nextMessage_frame body (by omega), List.append_cancel_left sent, by omega⟩

def Takes (frames : List Body) (tail : List UInt8) (slots : List Nat) (r final : Reader) : Prop :=
  (∃ done rest, frames = done ++ rest ∧ done.length = served 0 slots ∧
    final = ⟨stream rest tail, r.taken ++ done.map Subtype.val⟩) ∨
  (frames.length < served 0 slots ∧ r.taken.length + frames.length < final.taken.length)

theorem foldl_read_takes (frames : List Body) {tail : List UInt8} (incomplete : Incomplete tail)
    (reads : List (List UInt8)) (r : Reader)
    (sent : r.receiveBuffer ++ reads.flatten = stream frames tail) :
    Takes frames tail (arrivals frames tail r.receiveBuffer.length reads) r
      (reads.foldl Reader.read r) := by
  induction reads generalizing frames r with
  | nil =>
    refine Or.inl ⟨[], frames, rfl, rfl, ?_⟩
    have buffer : r.receiveBuffer = stream frames tail := by simpa using sent
    simp [← buffer]
  | cons bytes reads ih =>
    rw [List.flatten_cons, ← List.append_assoc] at sent
    have length : (r.receiveBuffer ++ bytes).length = r.receiveBuffer.length + bytes.length :=
      List.length_append
    rw [List.foldl_cons, arrivals, ← length]
    -- a read that takes nothing leaves the queue as it was
    have waits : nextMessage (r.receiveBuffer ++ bytes) = none →
        ready frames tail (r.receiveBuffer ++ bytes).length = 0 →
        Takes frames tail (ready frames tail (r.receiveBuffer ++ bytes).length ::
          arrivals frames tail (r.receiveBuffer ++ bytes).length reads) r
          (reads.foldl Reader.read (r.read bytes)) := by
      intro none zero
      have later := ih frames ⟨r.receiveBuffer ++ bytes, r.taken⟩ sent
      rw [Reader.read_eq_none none, zero]
      exact later
    cases frames with
    | nil =>
      have beginning := nextMessage_incomplete sent incomplete
      by_cases mistaken : Wraps tail ∧ 5 ≤ (r.receiveBuffer ++ bytes).length
      · cases next : nextMessage (r.receiveBuffer ++ bytes) with
        | none => exact absurd mistaken (beginning.mp next)
        | some split =>
          have one : ready [] tail (r.receiveBuffer ++ bytes).length = 1 := if_pos mistaken
          have grows := (Reader.taken_prefix reads ⟨split.2, r.taken ++ [split.1]⟩).length_le
          rw [List.length_append, List.length_singleton] at grows
          refine Or.inr ⟨?_, ?_⟩
          · rw [one]
            exact le_served 1 _
          · rw [Reader.read_eq_some next, List.length_nil]
            omega
      · exact waits (beginning.mpr mistaken) (if_neg mistaken)
    | cons body frames =>
      by_cases complete : 4 + body.val.length ≤ (r.receiveBuffer ++ bytes).length ∧
          5 ≤ (r.receiveBuffer ++ bytes).length
      · obtain ⟨rest, next, behind, restLength⟩ := nextMessage_stream sent complete
        have later := ih frames ⟨rest, r.taken ++ [body.val]⟩ behind
        have slots : served 0 (ready (body :: frames) tail (r.receiveBuffer ++ bytes).length ::
            arrivals (body :: frames) tail (r.receiveBuffer ++ bytes).length reads) =
            served 0 (arrivals frames tail rest.length reads) + 1 := by
          rw [arrivals_cons_of_ready frames tail complete.1 complete.2, ready, if_pos complete,
            ← restLength, served, if_pos (Nat.succ_pos _), served_succ]
        rw [Reader.read_eq_some next]
        unfold Takes
        rw [slots]
        rcases later with ⟨done, others, split, length, final⟩ | ⟨more, taken⟩
        · refine Or.inl
            ⟨body :: done, others, by rw [split, List.cons_append], by simp [length], ?_⟩
          rw [final]
          simp
        · refine Or.inr ⟨by simpa using more, ?_⟩
          simp only [List.length_append, List.length_cons, List.length_nil] at taken ⊢
          omega
      · refine waits (nextMessage_waits (stream_cons body frames tail ▸ sent) ?_) (if_neg complete)
        omega

/-- The messages ready among the first `k` reads. -/
def readyBy (frames : List Body) (tail : List UInt8) (reads : List (List UInt8)) (k : Nat) : Nat :=
  ready frames tail (reads.take k).flatten.length

@[simp] theorem ready_zero (frames : List Body) (tail : List UInt8) : ready frames tail 0 = 0 := by
  cases frames with
  | nil => simp [ready]
  | cons body rest => simp [ready]

theorem keepsUp_arrivals_iff (m : Nat) (frames : List Body) (tail : List UInt8)
    (reads : List (List UInt8)) : KeepsUp m (arrivals frames tail 0 reads) ↔
      ∀ k ≤ reads.length, m ≤ readyBy frames tail reads k + (reads.length - k) := by
  simp only [KeepsUp, arrivals_length, arrivals_getElem, Nat.zero_add]
  constructor
  · rintro ⟨length, slots⟩ k hk
    cases k with
    | zero => simpa [readyBy] using length
    | succ i =>
      have slot := slots i (by omega)
      rw [readyBy]
      omega
  · intro all
    refine ⟨by simpa [readyBy] using all 0 (Nat.zero_le _), fun i hi => ?_⟩
    have slot := all (i + 1) hi
    rw [readyBy] at slot
    omega

theorem ready_le (frames : List Body) (tail : List UInt8) (n : Nat) :
    ready frames tail ((frames.flatMap frame).length + n) ≤
      frames.length + if Wraps tail ∧ 5 ≤ n then 1 else 0 := by
  induction frames with
  | nil => simp [ready]
  | cons body rest ih =>
    have behind : ((body :: rest).flatMap frame).length + n - (4 + body.val.length) =
        (rest.flatMap frame).length + n := by
      simp
      omega
    rw [ready, behind, List.length_cons]
    split_ifs at ih ⊢ <;> omega

theorem readyBy_length_le {frames : List Body} {tail : List UInt8} {reads : List (List UInt8)}
    (sent : reads.flatten = stream frames tail) (harmless : ¬ (Wraps tail ∧ 5 ≤ tail.length)) :
    readyBy frames tail reads reads.length ≤ frames.length := by
  have bound := ready_le frames tail tail.length
  rw [if_neg harmless, ← List.length_append] at bound
  rw [readyBy, List.take_length, sent]
  exact bound

theorem foldl_read_exact_iff {frames : List Body} {tail : List UInt8} {reads : List (List UInt8)}
    (incomplete : Incomplete tail) (sent : reads.flatten = stream frames tail) :
    reads.foldl Reader.read {} = ⟨tail, frames.map Subtype.val⟩ ↔
      (∀ k ≤ reads.length,
        frames.length ≤ readyBy frames tail reads k + (reads.length - k)) ∧
      (Wraps tail → 5 ≤ tail.length → ∃ k ≤ reads.length,
        readyBy frames tail reads k + (reads.length - k) ≤ frames.length) := by
  have takes : Takes frames tail (arrivals frames tail 0 reads) {} (reads.foldl Reader.read {}) :=
    foldl_read_takes frames incomplete reads {} sent
  have sorted := arrivals_sorted frames tail 0 reads
  have exact : reads.foldl Reader.read {} = ⟨tail, frames.map Subtype.val⟩ ↔
      served 0 (arrivals frames tail 0 reads) = frames.length := by
    rcases takes with ⟨done, rest, split, length, final⟩ | ⟨more, taken⟩
    · rw [final, ← length, split]
      constructor
      · intro all
        have same := congrArg (List.length ∘ Reader.taken) all
        simpa using same
      · intro all
        have none : rest = [] := by simpa using all
        simp [none]
    · refine iff_of_false (fun all => ?_) (by
        intro same
        exact absurd more (by rw [← same]; exact lt_irrefl _))
      rw [all] at taken
      simp at taken
  have atMost : (¬ KeepsUp (frames.length + 1) (arrivals frames tail 0 reads)) ↔
      ∃ k ≤ reads.length, readyBy frames tail reads k + (reads.length - k) ≤ frames.length := by
    rw [keepsUp_arrivals_iff]
    push Not
    simp only [Nat.lt_succ_iff]
  rw [exact, le_antisymm_iff, and_comm, le_served_iff sorted, ← not_lt, ← Nat.succ_le_iff,
    Nat.succ_eq_add_one, le_served_iff sorted, atMost, keepsUp_arrivals_iff]
  refine and_congr_right fun keeps => ⟨fun found _ _ => found, fun mistaken => ?_⟩
  by_cases wrapping : Wraps tail ∧ 5 ≤ tail.length
  · exact mistaken wrapping.1 wrapping.2
  · have bound := readyBy_length_le sent wrapping
    exact ⟨reads.length, le_rfl, by omega⟩

theorem foldl_read_of_whole {frames : List Body} {reads : List (List UInt8)}
    (sent : reads.flatten = stream frames []) :
    ∃ done rest, frames = done ++ rest ∧
      reads.foldl Reader.read {} = ⟨stream rest [], done.map Subtype.val⟩ := by
  have noTail : ¬ (Wraps [] ∧ 5 ≤ ([] : List UInt8).length) := by decide
  have incomplete : Incomplete [] := by decide
  have takes : Takes frames [] (arrivals frames [] 0 reads) {} (reads.foldl Reader.read {}) :=
    foldl_read_takes frames incomplete reads {} sent
  rcases takes with ⟨done, rest, split, _, final⟩ | ⟨more, _⟩
  · exact ⟨done, rest, split, final⟩
  · have keeps := (le_served_iff (arrivals_sorted frames [] 0 reads)).mp more
    have last := (keepsUp_arrivals_iff _ _ _ _).mp keeps reads.length le_rfl
    have bound := readyBy_length_le sent noTail
    omega

end Proto

open Proto

namespace ProtoClientConnection

theorem foldlM_readData {σ ε : Type} (serve : σ → List UInt8 → Except ε σ) {start session : σ}
    (r : Reader) (handled : r.taken.foldlM serve start = .ok session)
    (reads : List (List UInt8)) :
    reads.foldlM (readData serve) ⟨r.receiveBuffer, session⟩ =
      ((reads.foldl Reader.read r).taken.foldlM serve start).map
        (⟨(reads.foldl Reader.read r).receiveBuffer, ·⟩) := by
  induction reads generalizing r session with
  | nil => rw [List.foldl_nil, handled]; rfl
  | cons bytes reads ih =>
    rw [List.foldlM_cons, List.foldl_cons]
    cases next : nextMessage (r.receiveBuffer ++ bytes) with
    | none =>
      have later := ih ⟨r.receiveBuffer ++ bytes, r.taken⟩ handled
      rw [Reader.read_eq_none next, ← later, readData]
      simp only [next]
      rfl
    | some split =>
      obtain ⟨body, rest⟩ := split
      have all : (r.taken ++ [body]).foldlM serve start = serve session body := by
        rw [List.foldlM_append, handled]
        exact bind_pure (serve session body)
      rw [Reader.read_eq_some next, readData]
      simp only [next]
      cases served : serve session body with
      | ok session' =>
        exact ih ⟨rest, r.taken ++ [body]⟩ (all.trans served)
      | error e =>
        obtain ⟨more, taken⟩ := Reader.taken_prefix reads ⟨rest, r.taken ++ [body]⟩
        rw [← taken, List.foldlM_append, all, served]
        rfl

/-- Whatever handling a message does, the reads handle every message once, in
order, and keep the tail. -/
def HandlesFrames (frames : List Body) (tail : List UInt8) (reads : List (List UInt8)) : Prop :=
  ∀ (σ ε : Type) (serve : σ → List UInt8 → Except ε σ) (session : σ),
    reads.foldlM (readData serve) ⟨[], session⟩ =
      ((frames.map Subtype.val).foldlM serve session).map (⟨tail, ·⟩)

def record (handled : List (List UInt8)) (body : List UInt8) : Except Empty (List (List UInt8)) :=
  .ok (handled ++ [body])

theorem foldlM_record (bodies handled : List (List UInt8)) :
    bodies.foldlM record handled = .ok (handled ++ bodies) := by
  induction bodies generalizing handled with
  | nil => simp [pure, Except.pure]
  | cons body bodies ih =>
    rw [List.foldlM_cons]
    exact (ih (handled ++ [body])).trans (by rw [List.append_assoc, List.singleton_append])

/-- The frames are handled when by every read as many messages are ready as the
reads behind it cannot make up for, and no beginning with a wrapping size is
reached. -/
theorem handlesFrames_iff (frames : List Body) (tail : List UInt8) (reads : List (List UInt8))
    (incomplete : Incomplete tail) (sent : reads.flatten = stream frames tail) :
    HandlesFrames frames tail reads ↔
      (∀ k ≤ reads.length,
        frames.length ≤ readyBy frames tail reads k + (reads.length - k)) ∧
      (Wraps tail → 5 ≤ tail.length → ∃ k ≤ reads.length,
        readyBy frames tail reads k + (reads.length - k) ≤ frames.length) := by
  rw [← foldl_read_exact_iff incomplete sent]
  constructor
  · intro handles
    have run := handles _ Empty record []
    rw [foldlM_readData _ {} rfl reads, foldlM_record, foldlM_record] at run
    obtain ⟨buffer, taken⟩ := ProtoClientConnection.mk.inj (Except.ok.inj run)
    exact congrArg₂ Reader.mk buffer taken
  · intro final σ ε serve session
    rw [foldlM_readData serve {} rfl reads, final]

def clearallBody : Body := ⟨[8, 4], by decide⟩

theorem handlesFrames_split :
    HandlesFrames [clearallBody, clearallBody] []
        [[0, 0, 0, 2, 8], [4, 0, 0, 0, 2], [8, 4]] ↔
      (∀ k ≤ 3, 2 ≤ readyBy [clearallBody, clearallBody] []
        [[0, 0, 0, 2, 8], [4, 0, 0, 0, 2], [8, 4]] k + (3 - k)) ∧
      (Wraps [] → 5 ≤ 0 → ∃ k ≤ 3, readyBy [clearallBody, clearallBody] []
        [[0, 0, 0, 2, 8], [4, 0, 0, 0, 2], [8, 4]] k + (3 - k) ≤ 2) :=
  handlesFrames_iff [clearallBody, clearallBody] []
    [[0, 0, 0, 2, 8], [4, 0, 0, 0, 2], [8, 4]] (by decide) (by decide)

/-- Of two frames in one read the second stays in the buffer. -/
theorem second_frame_left :
    [[0, 0, 0, 2, 8, 4, 0, 0, 0, 2, 8, 4]].flatten = stream [clearallBody, clearallBody] [] ∧
      ¬ HandlesFrames [clearallBody, clearallBody] []
        [[0, 0, 0, 2, 8, 4, 0, 0, 0, 2, 8, 4]] := by
  refine ⟨by decide, fun handles => ?_⟩
  have run := handles _ Empty record []
  rw [foldlM_record] at run
  obtain ⟨buffer, _⟩ := ProtoClientConnection.mk.inj (Except.ok.inj run)
  exact absurd buffer (by decide)

end ProtoClientConnection

namespace ProtoConnection

variable {parser : Parser} {skipReply : Bool}

/-- The bytes are a message, and its reply does not throw. -/
def Readable (parser : Parser) (skipReply : Bool) (body : List UInt8) : Prop :=
  (parser.parseReply body).1 = true ∧
    ∃ result, parseReply skipReply (parser.parseReply body).2 = .ok result

/-- Every frame is removed, and every message among them dispatched once. -/
def RemovesFrames (parser : Parser) (skipReply : Bool) (frames : List Body)
    (reads : List (List UInt8)) : Prop :=
  (reads.foldl (readData parser) { skipReply }).receiveBuffer = [] ∧
    (reads.foldl (readData parser) { skipReply }).dispatched =
      (frames.filter fun body => (parser.parseReply body.val).1).map fun body =>
        (parser.parseReply body.val).2

theorem readData_waits {c : ProtoConnection} {bytes : List UInt8}
    (waits : nextMessage (c.receiveBuffer ++ bytes) = none) :
    c.readData parser bytes = { c with receiveBuffer := c.receiveBuffer ++ bytes } := by
  simp only [readData, waits]

theorem readData_skipReply (parser : Parser) (c : ProtoConnection) (bytes : List UInt8) :
    (c.readData parser bytes).skipReply = c.skipReply := by
  unfold readData
  dsimp only
  split
  · rfl
  · split
    · rfl
    · split
      · rfl
      · rfl

theorem readData_readable {c : ProtoConnection} {bytes body rest : List UInt8}
    (whole : nextMessage (c.receiveBuffer ++ bytes) = some (body, rest))
    (readable : Readable parser c.skipReply body) :
    (c.readData parser bytes).receiveBuffer = rest ∧
      (c.readData parser bytes).dispatched = c.dispatched ++ [(parser.parseReply body).2] := by
  obtain ⟨parsed, result, returned⟩ := readable
  have split : parser.parseReply body = (true, (parser.parseReply body).2) :=
    Prod.ext parsed rfl
  generalize (parser.parseReply body).2 = reply at split returned
  simp [readData, whole, split, returned]

theorem readData_unreadable {c : ProtoConnection} {bytes body rest : List UInt8}
    (whole : nextMessage (c.receiveBuffer ++ bytes) = some (body, rest))
    (unreadable : ¬ Readable parser c.skipReply body) :
    (c.readData parser bytes).receiveBuffer = c.receiveBuffer ++ bytes := by
  unfold readData
  simp only [whole]
  split
  · rfl
  · rename_i reply split
    split
    · rfl
    · rename_i signals returned
      exact absurd ⟨by rw [split], _, by rw [split]; exact returned⟩ unreadable

theorem foldl_readData (reads : List (List UInt8)) (r : Reader) (c : ProtoConnection)
    (readable : ∀ body ∈ (reads.foldl Reader.read r).taken, Readable parser skipReply body)
    (skip : c.skipReply = skipReply) (buffer : c.receiveBuffer = r.receiveBuffer)
    (dispatched : c.dispatched = r.taken.map fun body => (parser.parseReply body).2) :
    (reads.foldl (readData parser) c).receiveBuffer = (reads.foldl Reader.read r).receiveBuffer ∧
      (reads.foldl (readData parser) c).dispatched =
        (reads.foldl Reader.read r).taken.map fun body => (parser.parseReply body).2 := by
  induction reads generalizing r c with
  | nil => exact ⟨buffer, dispatched⟩
  | cons bytes reads ih =>
    have skipNext := (readData_skipReply parser c bytes).trans skip
    cases next : nextMessage (r.receiveBuffer ++ bytes) with
    | none =>
      simp only [List.foldl_cons, Reader.read_eq_none next] at readable ⊢
      refine ih _ _ readable skipNext ?_ ?_
      · rw [readData_waits (buffer ▸ next), buffer]
      · rw [readData_waits (buffer ▸ next), dispatched]
    | some split =>
      simp only [List.foldl_cons, Reader.read_eq_some next] at readable ⊢
      have here : split.1 ∈ (reads.foldl Reader.read ⟨split.2, r.taken ++ [split.1]⟩).taken :=
        (Reader.taken_prefix reads _).mem (by simp)
      obtain ⟨rest, added⟩ := readData_readable (buffer ▸ next) (skip ▸ readable _ here)
      refine ih _ _ readable skipNext rest ?_
      rw [added, dispatched, List.map_append]
      rfl

theorem foldl_unreadable (reads : List (List UInt8)) (frames : List Body) (c : ProtoConnection)
    (sent : c.receiveBuffer ++ reads.flatten = stream frames [])
    (bad : ∃ body ∈ frames, ¬ Readable parser c.skipReply body.val) :
    (reads.foldl (readData parser) c).receiveBuffer ≠ [] := by
  induction reads generalizing frames c with
  | nil =>
    intro none
    obtain ⟨body, mem, _⟩ := bad
    have empty : stream frames [] = [] := by
      rw [← sent]
      simpa using none
    rw [stream_eq_nil_iff.mp empty] at mem
    exact absurd mem List.not_mem_nil
  | cons bytes reads ih =>
    rw [List.flatten_cons, ← List.append_assoc] at sent
    have skip := readData_skipReply parser c bytes
    have stays : (c.readData parser bytes).receiveBuffer = c.receiveBuffer ++ bytes →
        ((bytes :: reads).foldl (readData parser) c).receiveBuffer ≠ [] := by
      intro buffer
      exact ih frames (c.readData parser bytes) (buffer ▸ sent) (skip ▸ bad)
    cases frames with
    | nil =>
      obtain ⟨body, mem, _⟩ := bad
      exact absurd mem List.not_mem_nil
    | cons first frames =>
      by_cases complete : 4 + first.val.length ≤ (c.receiveBuffer ++ bytes).length ∧
          5 ≤ (c.receiveBuffer ++ bytes).length
      · obtain ⟨rest, next, behind, _⟩ := nextMessage_stream sent complete
        by_cases readable : Readable parser c.skipReply first.val
        · refine ih frames (c.readData parser bytes) ?_ ?_
          · rw [(readData_readable next readable).1]
            exact behind
          · rw [skip]
            obtain ⟨body, mem, unreadable⟩ := bad
            cases List.mem_cons.mp mem with
            | inl same => exact absurd (same ▸ readable) unreadable
            | inr later => exact ⟨body, later, unreadable⟩
        · exact stays (readData_unreadable next readable)
      · have waits : nextMessage (c.receiveBuffer ++ bytes) = none :=
          nextMessage_waits (stream_cons first frames [] ▸ sent) (by omega)
        exact stays (by rw [readData_waits waits])

/-- The client removes every frame exactly when none of them is unreadable and
each has a read to be taken in. -/
theorem removesFrames_iff (parser : Parser) (skipReply : Bool) (frames : List Body)
    (reads : List (List UInt8)) (sent : reads.flatten = stream frames []) :
    RemovesFrames parser skipReply frames reads ↔
      (∀ body ∈ frames, Readable parser skipReply body.val) ∧
      ∀ k ≤ reads.length, frames.length ≤ readyBy frames [] reads k + (reads.length - k) := by
  by_cases readable : ∀ body ∈ frames, Readable parser skipReply body.val
  · have messages : (frames.filter fun body => (parser.parseReply body.val).1) = frames :=
      List.filter_eq_self.mpr fun body mem => (readable body mem).1
    have exact := foldl_read_exact_iff (show Incomplete [] by decide) sent
    have noTail : (Wraps [] → 5 ≤ ([] : List UInt8).length → ∃ k ≤ reads.length,
        readyBy frames [] reads k + (reads.length - k) ≤ frames.length) ↔ True :=
      iff_true_intro fun wraps => absurd wraps (by decide)
    rw [noTail, and_true] at exact
    obtain ⟨done, rest, split, final⟩ := foldl_read_of_whole sent
    have taken : ∀ body ∈ (reads.foldl Reader.read {}).taken, Readable parser skipReply body := by
      rw [final]
      intro bytes mem
      obtain ⟨body, hbody, rfl⟩ := List.mem_map.mp mem
      exact readable body (split ▸ List.mem_append_left rest hbody)
    obtain ⟨buffer, dispatched⟩ := foldl_readData reads {} { skipReply } taken rfl rfl rfl
    rw [and_iff_right readable, ← exact, RemovesFrames, messages, buffer, dispatched, final]
    constructor
    · rintro ⟨empty, _⟩
      rw [split, stream_eq_nil_iff.mp empty]
      simp
    · intro all
      obtain ⟨empty, same⟩ := Reader.mk.inj all
      refine ⟨empty, ?_⟩
      rw [same, List.map_map]
      rfl
  · refine iff_of_false (fun removes => ?_) (fun both => readable both.1)
    push Not at readable
    exact foldl_unreadable reads frames { skipReply } sent readable removes.1

def successParser : Parser where
  parseRequest _ := (false, {})
  parseReply bytes :=
    if bytes = [8, 1, 16, 1] then (true, { type := some .reply, success := some true })
    else (false, {})

def successBody : Body := ⟨[8, 1, 16, 1], by decide⟩

def garbageBody : Body := ⟨[7], by decide⟩

theorem removesFrames_success :
    RemovesFrames successParser false [successBody] [[0, 0, 0], [4, 8, 1, 16, 1]] ↔
      (∀ body ∈ [successBody], Readable successParser false body.val) ∧
      ∀ k ≤ 2, 1 ≤ readyBy [successBody] [] [[0, 0, 0], [4, 8, 1, 16, 1]] k + (2 - k) :=
  removesFrames_iff successParser false [successBody] [[0, 0, 0], [4, 8, 1, 16, 1]] (by decide)

/-- A frame that is no reply keeps the replies behind it in the buffer. -/
theorem reply_behind_garbage :
    [[0, 0, 0, 1, 7], [0, 0, 0, 4, 8, 1, 16, 1]].flatten = stream [garbageBody, successBody] [] ∧
      ¬ RemovesFrames successParser false [garbageBody, successBody]
        [[0, 0, 0, 1, 7], [0, 0, 0, 4, 8, 1, 16, 1]] := by
  refine ⟨by decide, fun removes => ?_⟩
  exact absurd removes.1 (by decide)

end ProtoConnection

end HyperionNg
