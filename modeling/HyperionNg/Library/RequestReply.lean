import HyperionNg.Library.Execution
import HyperionNg.Library.Lines

/-! Two parties over two streams. One sends a line and waits for a line in
answer; the other answers every line it has whole. However the streams are cut,
the lines are answered one after the other. -/

namespace HyperionNg.Library.RequestReply

open Execution Lines

variable {α σ : Type}

/-- `kept` is what the other party has of a line, and `heard` what the first
has of an answer; `up` and `down` are under way. -/
structure Link (α σ : Type) where
  other : σ
  kept : List α := []
  up : List α := []
  down : List α := []
  heard : List α := []
  waiting : Bool := false
  requests : List (List α) := []
  replies : List (List α) := []

inductive Event (α : Type)
  | request (line : List α)
  | arriveUp (n : Nat)
  | arriveDown (n : Nat)

section Step

variable [DecidableEq α] (terminator : α) (answer : σ → List α → σ × List α)

def answerAll : σ → List (List α) → σ × List (List α)
  | s, [] => (s, [])
  | s, line :: rest =>
    let (t, reply) := answer s line
    let (u, replies) := answerAll t rest
    (u, reply :: replies)

def step (l : Link α σ) : Event α → Except Unit (Link α σ)
  | .request line =>
    if l.waiting then .error ()
    else .ok { l with up := l.up ++ line, waiting := true, requests := l.requests ++ [line] }
  | .arriveUp n =>
    let (lines, tail) := splitLines terminator (l.kept ++ l.up.take n)
    let (other, replies) := answerAll answer l.other lines
    .ok { l with other, kept := tail, up := l.up.drop n, down := l.down ++ replies.flatten }
  | .arriveDown n =>
    let heard := l.heard ++ l.down.take n
    if !l.waiting then .error ()
    else if terminator ∈ heard then
      .ok { l with
        down := l.down.drop n
        heard := []
        waiting := false
        replies := l.replies ++ [heard] }
    else .ok { l with down := l.down.drop n, heard }

end Step

variable {answer : σ → List α → σ × List α}

theorem answerAll_append (s : σ) (first second : List (List α)) :
    answerAll answer s (first ++ second) =
      ((answerAll answer (answerAll answer s first).1 second).1,
        (answerAll answer s first).2 ++
          (answerAll answer (answerAll answer s first).1 second).2) := by
  induction first generalizing s with
  | nil => rfl
  | cons line rest ih => simp [answerAll, ih]

inductive Synchronous (terminator : α) (answer : σ → List α → σ × List α) (s : σ) :
    Link α σ → Prop
  | idle {other : σ} {requests replies : List (List α)}
    (done : answerAll answer s requests = (other, replies)) :
    Synchronous terminator answer s
      { other, requests, replies }
  | asked {other : σ} {kept up line : List α} {requests replies : List (List α)}
    (done : answerAll answer s requests = (other, replies)) (isLine : Line terminator line)
    (joined : kept ++ up = line) (open_ : terminator ∉ kept) :
    Synchronous terminator answer s
      { other, kept, up, waiting := true, requests := requests ++ [line], replies }
  | answered {other : σ} {down heard line : List α} {requests replies : List (List α)}
    (done : answerAll answer s requests = (other, replies))
    (joined : heard ++ down = (answer other line).2) (open_ : terminator ∉ heard) :
    Synchronous terminator answer s
      { other := (answer other line).1, down, heard, waiting := true,
        requests := requests ++ [line], replies }

theorem Line.eq_nil_or_notMem {terminator : α} {line front rest : List α}
    (isLine : Line terminator line) (joined : front ++ rest = line) :
    rest = [] ∨ terminator ∉ front := by
  obtain ⟨text, absent, rfl⟩ := isLine
  cases rest using List.reverseRecOn with
  | nil => exact Or.inl rfl
  | append_singleton rest last =>
    rw [← List.append_assoc] at joined
    obtain ⟨before, -⟩ := List.append_inj' joined rfl
    exact Or.inr fun mem => absent (before ▸ List.mem_append_left rest mem)

section Steps

variable [DecidableEq α] {terminator : α}

def Answers (terminator : α) (answer : σ → List α → σ × List α) : Prop :=
  ∀ s line, (answer s line).2 = [] ∨ Line terminator (answer s line).2

theorem Synchronous.arriveUp {s : σ} {other : σ} {kept up line : List α}
    {requests replies : List (List α)} (done : answerAll answer s requests = (other, replies))
    (isLine : Line terminator line) (joined : kept ++ up = line) (n : Nat) :
    ∃ l, step terminator answer
        { other, kept, up, waiting := true, requests := requests ++ [line], replies }
        (.arriveUp n) = .ok l ∧ Synchronous terminator answer s l := by
  have cut : (kept ++ up.take n) ++ up.drop n = line := by
    rw [List.append_assoc, List.take_append_drop, joined]
  rcases Line.eq_nil_or_notMem isLine cut with none | absent
  · have whole : kept ++ up.take n = line := by rw [← cut, none, List.append_nil]
    have split : splitLines terminator line = ([line], []) := by
      simpa [splitLines] using splitLines_line isLine []
    have nothing : [] ++ (answer other line).2 = (answer other line).2 := rfl
    refine ⟨_, ?_, .answered done nothing List.not_mem_nil⟩
    simp [step, whole, split, answerAll, none]
  · refine ⟨_, ?_, .asked done isLine cut absent⟩
    simp [step, splitLines_of_not_mem absent, answerAll]

theorem Synchronous.arriveDown (answers : Answers terminator answer) {s : σ} {other : σ}
    {down heard line : List α} {requests replies : List (List α)}
    (done : answerAll answer s requests = (other, replies))
    (joined : heard ++ down = (answer other line).2) (n : Nat) :
    ∃ l, step terminator answer
        { other := (answer other line).1, down, heard, waiting := true,
          requests := requests ++ [line], replies } (.arriveDown n) = .ok l ∧
      Synchronous terminator answer s l := by
  have cut : (heard ++ down.take n) ++ down.drop n = (answer other line).2 := by
    rw [List.append_assoc, List.take_append_drop, joined]
  by_cases found : terminator ∈ heard ++ down.take n
  · have isLine : Line terminator (answer other line).2 := by
      refine (answers other line).resolve_left fun none => ?_
      rw [none, List.append_eq_nil_iff] at cut
      exact absurd found (by simp [cut.1])
    have none : down.drop n = [] :=
      (Line.eq_nil_or_notMem isLine cut).resolve_right (not_not_intro found)
    have whole : heard ++ down.take n = (answer other line).2 := by
      rw [← cut, none, List.append_nil]
    have last : answerAll answer s (requests ++ [line]) =
        ((answer other line).1, replies ++ [(answer other line).2]) := by
      simp [answerAll_append, done, answerAll]
    refine ⟨_, ?_, .idle last⟩
    rw [whole] at found
    simp [step, whole, found, none]
  · refine ⟨_, ?_, .answered done cut found⟩
    simp [step, found]

/-- Every step keeps to one of the phases. -/
theorem Synchronous.step (answers : Answers terminator answer) {s : σ} {l m : Link α σ}
    (inv : Synchronous terminator answer s l) {e : Event α}
    (isLine : ∀ line, e = .request line → Line terminator line)
    (next : step terminator answer l e = .ok m) : Synchronous terminator answer s m := by
  cases inv with
  | idle done =>
    cases e with
    | request line =>
      simp only [RequestReply.step, if_false, Bool.false_eq_true, Except.ok.injEq] at next
      subst next
      exact .asked done (isLine line rfl) rfl List.not_mem_nil
    | arriveUp n =>
      simp only [RequestReply.step, List.take_nil, List.drop_nil, List.append_nil,
        splitLines, answerAll,
        List.flatten_nil, Except.ok.injEq] at next
      subst next
      exact .idle done
    | arriveDown n => simp [RequestReply.step] at next
  | asked done line joined absent =>
    cases e with
    | request other => simp [RequestReply.step] at next
    | arriveUp n =>
      obtain ⟨l, stepped, inv⟩ := Synchronous.arriveUp done line joined n
      obtain rfl := Except.ok.inj (stepped.symm.trans next)
      exact inv
    | arriveDown n =>
      simp only [RequestReply.step, List.take_nil, List.drop_nil, List.append_nil,
        List.not_mem_nil, Bool.not_true, Bool.false_eq_true, if_false, Except.ok.injEq] at next
      subst next
      exact .asked done line joined absent
  | answered done joined absent =>
    cases e with
    | request other => simp [RequestReply.step] at next
    | arriveUp n =>
      simp only [RequestReply.step, List.take_nil, List.drop_nil, List.append_nil,
        splitLines, answerAll,
        List.flatten_nil, Except.ok.injEq] at next
      subst next
      exact .answered done joined absent
    | arriveDown n =>
      obtain ⟨l, stepped, inv⟩ := Synchronous.arriveDown answers done joined n
      obtain rfl := Except.ok.inj (stepped.symm.trans next)
      exact inv

def Whole (terminator : α) (l : Link α σ) : Prop := ∀ reply ∈ l.replies, terminator ∈ reply

theorem Whole.step {l m : Link α σ} (whole : Whole terminator l) {e : Event α}
    (next : step terminator answer l e = .ok m) : Whole terminator m := by
  cases e with
  | request line =>
    simp only [RequestReply.step] at next
    split_ifs at next
    obtain rfl := Except.ok.inj next
    exact whole
  | arriveUp n =>
    obtain rfl := Except.ok.inj next
    exact whole
  | arriveDown n =>
    simp only [RequestReply.step] at next
    split_ifs at next with _ found
    · obtain rfl := Except.ok.inj next
      intro reply mem
      rcases List.mem_append.mp mem with before | here
      · exact whole reply before
      · exact List.mem_singleton.mp here ▸ found
    · obtain rfl := Except.ok.inj next
      exact whole

end Steps

theorem Synchronous.replies {terminator : α} {s : σ} {l : Link α σ}
    (inv : Synchronous terminator answer s l) :
    ∃ done pending, l.requests = done ++ pending ∧ pending.length ≤ 1 ∧
      l.replies = (answerAll answer s done).2 ∧
      (l.waiting = false → pending = [] ∧ l.other = (answerAll answer s done).1 ∧
        l.kept = [] ∧ l.up = [] ∧ l.down = [] ∧ l.heard = []) := by
  cases inv with
  | idle done => exact ⟨_, [], (List.append_nil _).symm, by simp, by simp [done], by simp [done]⟩
  | asked done | answered done => exact ⟨_, [_], rfl, le_rfl, by simp [done], nofun⟩

end HyperionNg.Library.RequestReply
