import Mathlib.Data.List.Basic
import Mathlib.Logic.Function.Basic

/-! Regular expressions the way a backtracking matcher runs them: every way to
match, the preferred one first, each with the texts its groups hold at the end.
A group that is repeated holds what it matched last. -/

namespace HyperionNg.Library.Captures

inductive Regex (α : Type) where
  | one (allowed : α → Bool)
  | start
  | finish (newline : α → Bool)
  | seq (first second : Regex α)
  | times (n : Nat) (body : Regex α)
  | plus (body : Regex α)
  | group (index : Nat) (body : Regex α)

structure Thread (α : Type) where
  pos : Nat
  rest : List α
  captures : Nat → Option (List α)

variable {α : Type}

def repeatTimes (step : Thread α → List (Thread α)) : Nat → Thread α → List (Thread α)
  | 0, t => [t]
  | n + 1, t => (step t).flatMap (repeatTimes step n)

def greedy (step : Thread α → List (Thread α)) : Nat → Thread α → List (Thread α)
  | 0, t => step t
  | fuel + 1, t => (step t).flatMap fun u =>
      if u.rest.length < t.rest.length then greedy step fuel u ++ [u] else [u]

namespace Regex

def runs : Regex α → Thread α → List (Thread α)
  | .one allowed, t =>
    match t.rest with
    | [] => []
    | c :: rest => if allowed c then [{ t with pos := t.pos + 1, rest := rest }] else []
  | .start, t => if t.pos = 0 then [t] else []
  | .finish newline, t =>
    match t.rest with
    | [] => [t]
    | [c] => if newline c then [t] else []
    | _ :: _ :: _ => []
  | .seq first second, t => (first.runs t).flatMap second.runs
  | .times n body, t => repeatTimes body.runs n t
  | .plus body, t => greedy body.runs t.rest.length t
  | .group index body, t => (body.runs t).map fun u =>
      { u with captures := Function.update u.captures index (some (t.rest.take (u.pos - t.pos))) }

def groups : Regex α → Nat
  | .one _ => 0
  | .start => 0
  | .finish _ => 0
  | .seq first second => max first.groups second.groups
  | .times _ body => body.groups
  | .plus body => body.groups
  | .group index body => max index body.groups

def search (regex : Regex α) : Nat → List α → Option (List α × Thread α)
  | pos, [] => (regex.runs ⟨pos, [], fun _ => none⟩).head?.map fun t => ([], t)
  | pos, c :: rest =>
    match (regex.runs ⟨pos, c :: rest, fun _ => none⟩).head? with
    | some t => some ((c :: rest).take (t.pos - pos), t)
    | none => regex.search (pos + 1) rest

def capturedTexts (regex : Regex α) (subject : List α) : Option (List (List α)) :=
  (regex.search 0 subject).map fun (whole, t) =>
    whole :: (List.range regex.groups).map fun i => (t.captures (i + 1)).getD []

end Regex

open Regex

theorem repeatTimes_one {allowed : α → Bool} {block : List α} (all : ∀ c ∈ block, allowed c)
    (pos : Nat) (rest : List α) (captures : Nat → Option (List α)) :
    repeatTimes (one allowed).runs block.length ⟨pos, block ++ rest, captures⟩ =
      [⟨pos + block.length, rest, captures⟩] := by
  induction block generalizing pos with
  | nil => rfl
  | cons c block ih =>
    have here : (one allowed).runs ⟨pos, c :: (block ++ rest), captures⟩ =
        [⟨pos + 1, block ++ rest, captures⟩] := by
      simp only [runs, all c List.mem_cons_self, if_true]
    rw [List.length_cons, List.cons_append, repeatTimes, here, List.flatMap_singleton,
      ih fun d mem => all d (List.mem_cons_of_mem c mem)]
    simp only [Nat.add_assoc, Nat.add_comm 1]

private theorem repeatTimes_one_nil {allowed : α → Bool} {n pos : Nat} (positive : 0 < n)
    {captures : Nat → Option (List α)} :
    repeatTimes (one allowed).runs n ⟨pos, [], captures⟩ = [] := by
  cases n with
  | zero => exact absurd positive (Nat.lt_irrefl 0)
  | succ n => rfl

private theorem group_times {allowed : α → Bool} {index pos : Nat} {block rest : List α}
    {captures : Nat → Option (List α)} (all : ∀ c ∈ block, allowed c) :
    (group index (times block.length (one allowed))).runs ⟨pos, block ++ rest, captures⟩ =
      [⟨pos + block.length, rest, Function.update captures index (some block)⟩] := by
  rw [runs, runs, repeatTimes_one all]
  simp

private theorem greedy_nil {step : Thread α → List (Thread α)} {t : Thread α} (none : step t = [])
    (fuel : Nat) : greedy step fuel t = [] := by
  cases fuel with
  | zero => exact none
  | succ fuel => rw [greedy, none, List.flatMap_nil]

theorem greedy_blocks {step : Thread α → List (Thread α)} {index n : Nat} {blocks : List (List α)}
    (positive : 0 < n) (lengths : ∀ block ∈ blocks, block.length = n)
    (takes : ∀ block ∈ blocks, ∀ pos rest captures, step ⟨pos, block ++ rest, captures⟩ =
      [⟨pos + n, rest, Function.update captures index (some block)⟩])
    (stops : ∀ pos captures, step ⟨pos, [], captures⟩ = []) (nonempty : blocks ≠ [])
    {fuel : Nat} (enough : blocks.length ≤ fuel) (pos : Nat)
    (captures : Nat → Option (List α)) :
    ∃ others, greedy step fuel ⟨pos, blocks.flatten, captures⟩ =
      ⟨pos + n * blocks.length, [],
        Function.update captures index (some (blocks.getLast nonempty))⟩ :: others := by
  induction blocks generalizing fuel pos captures with
  | nil => exact absurd rfl nonempty
  | cons block rest ih =>
    obtain ⟨fuel, rfl⟩ := Nat.exists_eq_add_of_lt (Nat.lt_of_lt_of_le (Nat.succ_pos _) enough)
    have shorter : rest.flatten.length < (block ++ rest.flatten).length := by
      rw [List.length_append, lengths block List.mem_cons_self]
      omega
    rw [Nat.zero_add] at enough ⊢
    rw [List.flatten_cons, greedy, takes block List.mem_cons_self,
      List.flatMap_singleton, if_pos shorter]
    by_cases last : rest = []
    · subst last
      refine ⟨[], ?_⟩
      rw [List.flatten_nil, greedy_nil (stops _ _)]
      simp
    · obtain ⟨others, found⟩ := ih (fun b mem => lengths b (List.mem_cons_of_mem _ mem))
        (fun b mem => takes b (List.mem_cons_of_mem _ mem)) last
        (Nat.le_of_succ_le_succ enough) (pos + n) (Function.update captures index (some block))
      rw [found, Function.update_idem, List.getLast_cons last, List.length_cons, Nat.mul_succ,
        Nat.add_right_comm, Nat.add_assoc]
      exact ⟨_, rfl⟩

theorem plus_group_times (index pos : Nat) {allowed : α → Bool} {n : Nat} {blocks : List (List α)}
    (positive : 0 < n) (lengths : ∀ block ∈ blocks, block.length = n)
    (all : ∀ block ∈ blocks, ∀ c ∈ block, allowed c) (nonempty : blocks ≠ [])
    (captures : Nat → Option (List α)) :
    ∃ others, (plus (group index (times n (one allowed)))).runs ⟨pos, blocks.flatten, captures⟩ =
      ⟨pos + n * blocks.length, [],
        Function.update captures index (some (blocks.getLast nonempty))⟩ :: others := by
  refine greedy_blocks positive lengths (fun block mem pos rest captures => ?_)
    (fun pos captures => ?_) nonempty ?_ pos captures
  · obtain rfl := lengths block mem
    exact group_times (all block mem)
  · rw [runs, runs, repeatTimes_one_nil positive, List.map_nil]
  · have sizes : blocks.flatten.length = blocks.length * n := by
      rw [List.length_flatten, List.map_congr_left lengths]
      simp
    simpa [sizes] using Nat.le_mul_of_pos_right blocks.length positive

theorem search_of_runs {regex : Regex α} {subject : List α} {t : Thread α}
    {others : List (Thread α)}
    (found : regex.runs ⟨0, subject, fun _ => none⟩ = t :: others) :
    regex.search 0 subject = some (subject.take t.pos, t) := by
  cases subject with
  | nil => simp [search, found]
  | cons c rest => simp [search, found]

theorem search_anchored {body : Regex α} {newline : α → Bool} {subject : List α} {n : Nat}
    {captures : Nat → Option (List α)} {others : List (Thread α)}
    (found : body.runs ⟨0, subject, fun _ => none⟩ = ⟨n, [], captures⟩ :: others) :
    (seq start (seq body (finish newline))).search 0 subject =
      some (subject.take n, ⟨n, [], captures⟩) := by
  have runs_eq : (seq start (seq body (finish newline))).runs ⟨0, subject, fun _ => none⟩ =
      ⟨n, [], captures⟩ :: others.flatMap (finish newline).runs := by
    simp [runs, found]
  exact search_of_runs runs_eq

end HyperionNg.Library.Captures
