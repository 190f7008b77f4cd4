import Mathlib.Tactic

/-! A gated delay line: values enter a queue of bounded length while the gate
is open, and leave it when it is full or the gate is shut. Values of no delay
pass at once. -/

namespace HyperionNg.Library

/-- `outputs` are the values that left, latest first. -/
structure DelayLine (α : Type) where
  queue : List α
  outputs : List α
deriving DecidableEq

namespace DelayLine

variable {α : Type}

def pop (line : DelayLine α) : DelayLine α :=
  match line.queue with
  | [] => line
  | front :: rest => ⟨rest, front :: line.outputs⟩

def push (line : DelayLine α) (x : α) : DelayLine α := { line with queue := line.queue ++ [x] }

def shift (delay : Nat) (gate : Bool) (x : α) (line : DelayLine α) : DelayLine α :=
  if gate then
    if line.queue.length < delay then line.push x
    else (line.push x).pop
  else line.pop

/-- The line with every value replaced, those that left included. -/
def map {β : Type} (f : α → β) (line : DelayLine α) : DelayLine β :=
  ⟨line.queue.map f, line.outputs.map f⟩

def behind (line : DelayLine α) (older : List α) : DelayLine α :=
  { line with outputs := line.outputs ++ older }

private theorem pop_map {β : Type} (f : α → β) (line : DelayLine α) :
    (line.map f).pop = line.pop.map f := by
  obtain ⟨_ | ⟨front, rest⟩, outputs⟩ := line <;> rfl

private theorem push_map {β : Type} (f : α → β) (line : DelayLine α) (x : α) :
    (line.map f).push (f x) = (line.push x).map f := by
  simp [push, map]

theorem shift_map {β : Type} (f : α → β) (delay : Nat) (gate : Bool) (x : α)
    (line : DelayLine α) :
    (line.map f).shift delay gate (f x) = (line.shift delay gate x).map f := by
  have length : (line.map f).queue.length = line.queue.length := List.length_map _
  simp only [shift, length, push_map, pop_map]
  cases gate with
  | false => rfl
  | true => exact (apply_ite (DelayLine.map f) (line.queue.length < delay) _ _).symm

theorem shift_behind (delay : Nat) (gate : Bool) (x : α) (line : DelayLine α) (older : List α) :
    (line.behind older).shift delay gate x = (line.shift delay gate x).behind older := by
  have popped : ∀ l : DelayLine α, (l.behind older).pop = l.pop.behind older := by
    rintro ⟨_ | ⟨front, rest⟩, outputs⟩ <;> rfl
  cases gate with
  | false => exact popped line
  | true =>
    refine Eq.trans ?_ (apply_ite (DelayLine.behind · older) (line.queue.length < delay) _ _).symm
    rw [← popped]
    rfl

theorem shift_length_le {delay : Nat} {line : DelayLine α} (gate : Bool) (x : α)
    (bounded : line.queue.length ≤ delay) : (line.shift delay gate x).queue.length ≤ delay := by
  have popped : ∀ l : DelayLine α, l.pop.queue.length = l.queue.length - 1 := by
    rintro ⟨_ | ⟨front, rest⟩, outputs⟩ <;> simp [pop]
  unfold shift
  split_ifs with hg hl
  · simp only [push, List.length_append, List.length_singleton]
    omega
  · rw [popped]
    simp only [push, List.length_append, List.length_singleton]
    omega
  · rw [popped]
    omega

/-- `x` has left last and only copies of it follow. -/
def Done (x : α) (line : DelayLine α) : Prop :=
  ∃ copies, line.queue = List.replicate copies x ∧ line.outputs.head? = some x

/-- At most `remaining` shifts of `x` are needed for `x` to leave: while the
gate is open the copies fill the line, while it is shut those in front drain. -/
def Due (delay : Nat) (x : α) (remaining : Nat) (gate : Bool) (line : DelayLine α) : Prop :=
  line.Done x ∨ ∃ front copies, line.queue = front ++ List.replicate (copies + 1) x ∧
    if gate then delay ≤ remaining + copies else front.length < remaining

theorem Due.mono {delay m n : Nat} {x : α} {gate : Bool} {line : DelayLine α} (h : m ≤ n)
    (due : line.Due delay x m gate) : line.Due delay x n gate := by
  refine due.imp id ?_
  rintro ⟨front, copies, hqueue, hdue⟩
  refine ⟨front, copies, hqueue, ?_⟩
  split_ifs at hdue ⊢ <;> omega

theorem Due.done {delay : Nat} {x : α} {gate : Bool} {line : DelayLine α}
    (bounded : line.queue.length ≤ delay) (due : line.Due delay x 0 gate) : line.Done x := by
  rcases due with done | ⟨front, copies, hqueue, hdue⟩
  · exact done
  · have hlen : line.queue.length = front.length + (copies + 1) := by simp [hqueue]
    split_ifs at hdue <;> omega

theorem Done.shift {delay : Nat} {x : α} {line : DelayLine α} (gate : Bool) (done : line.Done x) :
    (line.shift delay gate x).Done x := by
  obtain ⟨copies, hqueue, hlast⟩ := done
  have pushed : (line.push x).queue = List.replicate (copies + 1) x := by
    rw [push, hqueue, List.replicate_succ']
  have popped : ∀ l : DelayLine α, l.Done x → l.pop.Done x := by
    rintro ⟨queue, outputs⟩ ⟨n, rfl, hl⟩
    cases n with
    | zero => exact ⟨0, rfl, hl⟩
    | succ n => exact ⟨n, rfl, rfl⟩
  unfold DelayLine.shift
  split_ifs
  · exact ⟨copies + 1, pushed, hlast⟩
  · exact popped _ ⟨copies + 1, pushed, hlast⟩
  · exact popped _ ⟨copies, hqueue, hlast⟩

/-- A value that enters leaves within `delay` further shifts, whether the gate
then stays open or shuts. -/
theorem due_of_shift {delay : Nat} {line : DelayLine α} (x : α)
    (bounded : line.queue.length ≤ delay) (gate : Bool) :
    (line.shift delay true x).Due delay x delay gate := by
  simp only [shift, if_true]
  split_ifs with hl
  · refine Or.inr ⟨line.queue, 0, rfl, ?_⟩
    split_ifs <;> omega
  · obtain ⟨_ | ⟨front, rest⟩, outputs⟩ := line
    · exact Or.inl ⟨0, rfl, rfl⟩
    · refine Or.inr ⟨rest, 0, rfl, ?_⟩
      simp only [List.length_cons] at bounded
      split_ifs <;> omega

theorem Due.shift {delay remaining : Nat} {x : α} {gate next : Bool} {line : DelayLine α}
    (bounded : line.queue.length ≤ delay) (shuts : next = true → gate = true)
    (due : line.Due delay x (remaining + 1) gate) :
    (line.shift delay gate x).Due delay x remaining next := by
  rcases due with done | ⟨front, copies, hqueue, hdue⟩
  · exact Or.inl (done.shift gate)
  · have hlen : line.queue.length = front.length + (copies + 1) := by simp [hqueue]
    have pushed : line.queue ++ [x] = front ++ List.replicate (copies + 1 + 1) x := by
      rw [hqueue, List.append_assoc, ← List.replicate_succ']
    obtain ⟨queue, outputs⟩ := line
    simp only at hqueue hlen pushed bounded
    cases gate with
    | true =>
      simp only [if_true] at hdue
      simp only [DelayLine.shift, if_true, push]
      split_ifs with hl
      · refine Or.inr ⟨front, copies + 1, pushed, ?_⟩
        split_ifs <;> omega
      · rw [pushed]
        cases front with
        | nil => exact Or.inl ⟨copies + 1, rfl, rfl⟩
        | cons a front =>
          simp only [List.length_cons] at hlen
          refine Or.inr ⟨front, copies + 1, rfl, ?_⟩
          split_ifs <;> omega
    | false =>
      have hnext : next = false := by simpa using shuts
      simp only [Bool.false_eq_true, if_false] at hdue
      simp only [DelayLine.shift, Bool.false_eq_true, if_false, hqueue]
      cases front with
      | nil => exact Or.inl ⟨copies, rfl, rfl⟩
      | cons a front =>
        simp only [List.length_cons] at hdue
        refine Or.inr ⟨front, copies, rfl, ?_⟩
        simp only [hnext, Bool.false_eq_true, if_false]
        omega

/-- `x` is neither in the queue nor the last value that left. -/
def Absent (x : α) (line : DelayLine α) : Prop :=
  x ∉ line.queue ∧ line.outputs.head? ≠ some x

theorem Absent.shift {x : α} {line : DelayLine α} (absent : line.Absent x) (delay : Nat) (y : α) :
    (line.shift delay false y).Absent x := by
  obtain ⟨queue, outputs⟩ := line
  obtain ⟨hqueue, hlast⟩ := absent
  cases queue with
  | nil => exact ⟨hqueue, hlast⟩
  | cons front rest =>
    obtain ⟨hne, hrest⟩ : x ≠ front ∧ x ∉ rest := by simpa using hqueue
    exact ⟨hrest, fun h => hne (Option.some.inj h).symm⟩

def contents (line : DelayLine α) : List α := line.outputs.reverse ++ line.queue

private theorem pop_contents (line : DelayLine α) : line.pop.contents = line.contents := by
  obtain ⟨_ | ⟨front, rest⟩, outputs⟩ := line
  · rfl
  · simp [pop, contents]

private theorem push_contents (line : DelayLine α) (x : α) :
    (line.push x).contents = line.contents ++ [x] := by
  simp [push, contents]

theorem shift_contents (delay : Nat) (gate : Bool) (x : α) (line : DelayLine α) :
    (line.shift delay gate x).contents = line.contents ++ if gate then [x] else [] := by
  unfold shift
  split_ifs with hg hl
  · exact line.push_contents x
  · rw [pop_contents, push_contents]
  · rw [pop_contents, List.append_nil]

/-- Shifts one after the other, each with its gate and its value. -/
def run (delay : Nat) (line : DelayLine α) (ticks : List (Bool × α)) : DelayLine α :=
  ticks.foldl (fun line tick => line.shift delay tick.1 tick.2) line

def entered (ticks : List (Bool × α)) : List α := (ticks.filter Prod.fst).map Prod.snd

theorem run_append (delay : Nat) (line : DelayLine α) (first second : List (Bool × α)) :
    line.run delay (first ++ second) = (line.run delay first).run delay second :=
  List.foldl_append

theorem run_contents (delay : Nat) (line : DelayLine α) (ticks : List (Bool × α)) :
    (line.run delay ticks).contents = line.contents ++ entered ticks := by
  induction ticks generalizing line with
  | nil => simp [run, entered]
  | cons tick rest ih =>
    obtain ⟨gate, x⟩ := tick
    refine (ih (line.shift delay gate x)).trans ?_
    rw [shift_contents, List.append_assoc]
    cases gate <;> rfl

theorem run_length_le {delay : Nat} {line : DelayLine α} (bounded : line.queue.length ≤ delay)
    (ticks : List (Bool × α)) : (line.run delay ticks).queue.length ≤ delay := by
  induction ticks generalizing line with
  | nil => exact bounded
  | cons tick rest ih => exact ih (shift_length_le tick.1 tick.2 bounded)

theorem shift_outputs (delay : Nat) (gate : Bool) (x : α) (line : DelayLine α) :
    ∃ left, (line.shift delay gate x).outputs = left ++ line.outputs := by
  have popped : ∀ l : DelayLine α, ∃ left, l.pop.outputs = left ++ l.outputs := by
    rintro ⟨_ | ⟨front, rest⟩, outputs⟩
    · exact ⟨[], rfl⟩
    · exact ⟨[front], rfl⟩
  unfold shift
  split_ifs
  · exact ⟨[], rfl⟩
  · exact popped _
  · exact popped _

theorem run_outputs (delay : Nat) (line : DelayLine α) (ticks : List (Bool × α)) :
    ∃ left, (line.run delay ticks).outputs = left ++ line.outputs := by
  induction ticks generalizing line with
  | nil => exact ⟨[], rfl⟩
  | cons tick rest ih =>
    obtain ⟨later, hlater⟩ := ih (line.shift delay tick.1 tick.2)
    obtain ⟨first, hfirst⟩ := line.shift_outputs delay tick.1 tick.2
    exact ⟨later ++ first, by rw [List.append_assoc, ← hfirst]; exact hlater⟩

/-- All values that wait, and all that left after `older`, meet `P`. -/
structure Since (P : α → Prop) (older : List α) (line : DelayLine α) : Prop where
  queue : ∀ x ∈ line.queue, P x
  outputs : ∃ left, line.outputs = left ++ older ∧ ∀ x ∈ left, P x

theorem Since.pop {P : α → Prop} {older : List α} {line : DelayLine α} (h : line.Since P older) :
    line.pop.Since P older := by
  obtain ⟨_ | ⟨front, rest⟩, outputs⟩ := line
  · exact h
  · obtain ⟨head, tail⟩ := List.forall_mem_cons.mp h.queue
    obtain ⟨left, same, all⟩ := h.outputs
    exact ⟨tail, front :: left, congrArg (front :: ·) same, List.forall_mem_cons.mpr ⟨head, all⟩⟩

theorem Since.push {P : α → Prop} {older : List α} {line : DelayLine α} (h : line.Since P older)
    {x : α} (hx : P x) : (line.push x).Since P older :=
  ⟨List.forall_mem_append.mpr ⟨h.queue, List.forall_mem_singleton.mpr hx⟩, h.outputs⟩

theorem Since.shift {P : α → Prop} {older : List α} {line : DelayLine α} (h : line.Since P older)
    {x : α} (hx : P x) (delay : Nat) (gate : Bool) : (line.shift delay gate x).Since P older := by
  unfold DelayLine.shift
  split_ifs
  · exact h.push hx
  · exact (h.push hx).pop
  · exact h.pop

theorem front_leaves {delay : Nat} {line : DelayLine α} {front : α} {rest : List α}
    (waits : line.queue = front :: rest) (bounded : line.queue.length ≤ delay)
    {ticks : List (Bool × α)} (enough : delay < line.queue.length + ticks.length) :
    ∃ left, (line.run delay ticks).outputs = left ++ line.outputs ∧ front ∈ left := by
  induction ticks generalizing line rest with
  | nil =>
    rw [List.length_nil] at enough
    omega
  | cons tick ticks ih =>
    obtain ⟨gate, x⟩ := tick
    have taken : ∀ l : DelayLine α, l.outputs = line.outputs → l.queue.head? = some front →
        line.shift delay gate x = l.pop →
        ∃ left, (line.run delay ((gate, x) :: ticks)).outputs = left ++ line.outputs ∧
          front ∈ left := by
      rintro ⟨_ | ⟨first, behind⟩, outputs⟩ same head shifted
      · exact absurd head.symm (Option.some_ne_none front)
      · obtain rfl : first = front := Option.some.inj head
        obtain rfl : outputs = line.outputs := same
        obtain ⟨left, hleft⟩ := run_outputs delay (pop ⟨first :: behind, line.outputs⟩) ticks
        refine ⟨left ++ [first], ?_, by simp⟩
        rw [← shifted] at hleft
        refine hleft.trans ?_
        rw [shifted, List.append_assoc]
        rfl
    cases gate with
    | false => exact taken line rfl (by rw [waits]; rfl) rfl
    | true =>
      by_cases room : line.queue.length < delay
      · have shifted : line.shift delay true x = line.push x := by
          simp only [shift, if_true, if_pos room]
        have queue : (line.push x).queue = front :: (rest ++ [x]) := by
          rw [push, waits]
          rfl
        have length : (line.push x).queue.length = line.queue.length + 1 := by
          rw [queue, waits]
          simp
        obtain ⟨left, outputs, mem⟩ :=
          ih queue (by omega) (by rw [List.length_cons] at enough; omega)
        refine ⟨left, ?_, mem⟩
        rw [← shifted] at outputs
        exact outputs.trans (by rw [shifted]; rfl)
      · refine taken (line.push x) rfl ?_ (by simp only [shift, if_true, if_neg room])
        rw [push, waits]
        rfl

/-- Something leaves a line within `delay + 1` shifts if something waits in it or
the first of them finds it open. -/
theorem run_leaves {delay : Nat} {line : DelayLine α} (bounded : line.queue.length ≤ delay)
    {ticks : List (Bool × α)} (enough : delay < ticks.length)
    (fed : line.queue ≠ [] ∨ ticks.head?.map Prod.fst = some true) :
    ∃ left, (line.run delay ticks).outputs = left ++ line.outputs ∧ left ≠ [] := by
  cases queue : line.queue with
  | cons front rest =>
    obtain ⟨left, outputs, mem⟩ := front_leaves queue bounded (Nat.lt_add_left _ enough)
    exact ⟨left, outputs, List.ne_nil_of_mem mem⟩
  | nil =>
    obtain first := fed.resolve_left (not_not.mpr queue)
    cases ticks with
    | nil => exact nomatch first
    | cons tick ticks =>
      obtain ⟨gate, x⟩ := tick
      obtain rfl : gate = true := Option.some.inj first
      rw [List.length_cons] at enough
      by_cases room : 0 < delay
      · have shifted : line.shift delay true x = line.push x := by
          simp only [shift, if_true, queue, List.length_nil, if_pos room]
        have entered : (line.shift delay true x).queue = [x] := by
          rw [shifted, push, queue]
          rfl
        have length : (line.shift delay true x).queue.length = 1 := congrArg List.length entered
        obtain ⟨left, outputs, mem⟩ := front_leaves entered (length.trans_le room)
          (show delay < _ + ticks.length by rw [length]; omega)
        exact ⟨left, outputs.trans (by rw [shifted]; rfl), List.ne_nil_of_mem mem⟩
      · have shifted : (line.shift delay true x).outputs = [x] ++ line.outputs := by
          simp only [shift, if_true, queue, List.length_nil, if_neg room, push, pop]
          rfl
        obtain ⟨left, outputs⟩ := run_outputs delay (line.shift delay true x) ticks
        refine ⟨left ++ [x], ?_, by simp⟩
        rw [List.append_assoc, ← shifted]
        exact outputs

theorem run_open_length {delay : Nat} {line : DelayLine α} (bounded : line.queue.length ≤ delay)
    {ticks : List (Bool × α)} (isOpen : ∀ tick ∈ ticks, tick.1 = true) :
    (line.run delay ticks).queue.length = min (line.queue.length + ticks.length) delay := by
  induction ticks generalizing line with
  | nil => exact (min_eq_left bounded).symm
  | cons tick rest ih =>
    obtain ⟨gate, x⟩ := tick
    obtain rfl : gate = true := isOpen (gate, x) List.mem_cons_self
    have next : (line.shift delay true x).queue.length = min (line.queue.length + 1) delay := by
      unfold shift
      rw [if_pos rfl]
      split_ifs with room
      · rw [push, List.length_append, List.length_singleton]
        omega
      · obtain ⟨_ | ⟨front, queue⟩, outputs⟩ := line
        · simp only [push, pop, List.nil_append, List.length_nil] at room ⊢
          omega
        · simp only [push, pop, List.cons_append, List.length_append, List.length_cons,
            List.length_nil] at room bounded ⊢
          omega
    have filled := ih (shift_length_le true x bounded) fun tick h =>
      isOpen tick (List.mem_cons_of_mem _ h)
    refine filled.trans ?_
    rw [next, List.length_cons]
    omega

theorem run_open {delay : Nat} {line : DelayLine α} (bounded : line.queue.length ≤ delay)
    {ticks : List (Bool × α)} (isOpen : ∀ tick ∈ ticks, tick.1 = true)
    (count : ticks.length = delay) :
    (line.run delay ticks).outputs.reverse = line.contents ∧
      (line.run delay ticks).queue = ticks.map Prod.snd := by
  have all : entered ticks = ticks.map Prod.snd := by
    rw [entered, List.filter_eq_self.mpr isOpen]
  have contents := line.run_contents delay ticks
  rw [all, DelayLine.contents] at contents
  refine List.append_inj' contents ?_
  rw [run_open_length bounded isOpen, List.length_map]
  omega

/-- A value offered to an open line leaves it at the last of the next `delay`
shifts, if all of them find it open. -/
theorem shift_after_open {delay : Nat} {line : DelayLine α}
    (bounded : line.queue.length ≤ delay) {ticks : List (Bool × α)}
    (isOpen : ∀ tick ∈ ticks, tick.1 = true) (count : ticks.length = delay) {x y : α}
    (first : (ticks ++ [(true, y)]).head? = some (true, x)) :
    ((line.run delay ticks).shift delay true y).outputs =
        x :: (line.run delay ticks).outputs ∧
      (line.run delay ticks).outputs.length = line.contents.length := by
  obtain ⟨left, kept⟩ := run_open bounded isOpen count
  refine ⟨?_, by rw [← left, List.length_reverse]⟩
  generalize line.run delay ticks = filled at left kept ⊢
  obtain ⟨queue, outputs⟩ := filled
  subst kept
  have full : ¬ (ticks.map Prod.snd).length < delay := by rw [List.length_map]; omega
  simp only [shift, if_true, if_neg full]
  cases ticks with
  | nil =>
    obtain rfl : y = x := by simpa using first
    rfl
  | cons tick rest =>
    obtain rfl : tick = (true, x) := by simpa using first
    rfl

end DelayLine

end HyperionNg.Library
