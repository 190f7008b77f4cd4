import Mathlib.Tactic

/-! A stream of terminated pieces. However the stream is cut, splitting the
cuts one after the other, each behind the tail of the one before, gives the
pieces of the whole. -/

namespace HyperionNg.Library.Lines

variable {α : Type} [DecidableEq α] (terminator : α)

def splitLines : List α → List (List α) × List α
  | [] => ([], [])
  | x :: rest =>
    let (lines, tail) := splitLines rest
    if x = terminator then ([x] :: lines, tail)
    else
      match lines with
      | [] => ([], x :: tail)
      | line :: lines => ((x :: line) :: lines, tail)

def Line (line : List α) : Prop := ∃ text, terminator ∉ text ∧ line = text ++ [terminator]

variable {terminator}

theorem splitLines_of_not_mem {text : List α} (absent : terminator ∉ text) :
    splitLines terminator text = ([], text) := by
  induction text with
  | nil => rfl
  | cons x rest ih =>
    rw [List.mem_cons, not_or] at absent
    have other : ¬ x = terminator := fun same => absent.1 same.symm
    simp [splitLines, ih absent.2, other]

theorem splitLines_line {line : List α} (isLine : Line terminator line) (rest : List α) :
    splitLines terminator (line ++ rest) =
      (line :: (splitLines terminator rest).1, (splitLines terminator rest).2) := by
  obtain ⟨text, absent, rfl⟩ := isLine
  induction text with
  | nil => simp [splitLines]
  | cons x text ih =>
    rw [List.mem_cons, not_or] at absent
    have other : ¬ x = terminator := fun same => absent.1 same.symm
    rw [List.cons_append, List.cons_append, splitLines, ih absent.2]
    simp [other]

theorem splitLines_flatten {lines : List (List α)} (all : ∀ line ∈ lines, Line terminator line)
    (rest : List α) : splitLines terminator (lines.flatten ++ rest) =
      (lines ++ (splitLines terminator rest).1, (splitLines terminator rest).2) := by
  induction lines with
  | nil => simp
  | cons line lines ih =>
    have later := ih fun line mem => all line (by simp [mem])
    rw [List.flatten_cons, List.append_assoc, splitLines_line (all line (by simp)), later]
    rfl

variable (terminator) in
theorem splitLines_spec (text : List α) :
    (splitLines terminator text).1.flatten ++ (splitLines terminator text).2 = text ∧
      (∀ line ∈ (splitLines terminator text).1, Line terminator line) ∧
      terminator ∉ (splitLines terminator text).2 := by
  induction text with
  | nil => simp [splitLines]
  | cons x rest ih =>
    obtain ⟨joined, all, absent⟩ := ih
    unfold splitLines
    by_cases same : x = terminator
    · subst same
      simp only [if_true]
      refine ⟨by simp [joined], ?_, absent⟩
      intro line mem
      cases List.mem_cons.mp mem with
      | inl here => exact ⟨[], by simp, here⟩
      | inr later => exact all line later
    · simp only [if_neg same]
      generalize hsplit : splitLines terminator rest = split at joined all absent ⊢
      obtain ⟨lines, tail⟩ := split
      cases lines with
      | nil =>
        refine ⟨by simpa using joined, by simp, ?_⟩
        simp only [List.mem_cons, not_or]
        exact ⟨fun h => same h.symm, absent⟩
      | cons line lines =>
        refine ⟨by simpa using joined, ?_, absent⟩
        intro other mem
        cases List.mem_cons.mp mem with
        | inl here =>
          obtain ⟨text, free, rfl⟩ := all line (by simp)
          refine ⟨x :: text, ?_, here⟩
          simp only [List.mem_cons, not_or]
          exact ⟨fun h => same h.symm, free⟩
        | inr later => exact all other (by simp [later])

theorem splitLines_append (first second : List α) :
    splitLines terminator (first ++ second) =
      ((splitLines terminator first).1 ++
        (splitLines terminator ((splitLines terminator first).2 ++ second)).1,
      (splitLines terminator ((splitLines terminator first).2 ++ second)).2) := by
  obtain ⟨joined, all, _⟩ := splitLines_spec terminator first
  conv_lhs => rw [← joined, List.append_assoc]
  exact splitLines_flatten all _

omit [DecidableEq α] in
theorem infix_of_terminated {pattern front rest : List α} (absent : terminator ∉ pattern)
    (found : pattern <:+: front ++ terminator :: rest) :
    pattern <:+: front ∨ pattern <:+: rest := by
  obtain ⟨before, after, joined⟩ := found
  rw [List.append_assoc] at joined
  rcases List.append_eq_append_iff.mp joined with ⟨first, split, tail⟩ | ⟨first, split, tail⟩
  · rcases List.append_eq_append_iff.mp tail with ⟨second, whole, _⟩ | ⟨second, whole, cut⟩
    · exact Or.inl ⟨before, second, by rw [split, whole, List.append_assoc]⟩
    · cases second with
      | nil => exact Or.inl ⟨before, [], by simp [split, whole]⟩
      | cons x second =>
        have same : terminator = x := (List.cons.inj cut).1
        exact absurd (by simp [whole, same]) absent
  · cases first with
    | nil =>
      cases pattern with
      | nil => exact Or.inl (List.nil_infix)
      | cons x pattern =>
        have same : terminator = x := (List.cons.inj tail).1
        exact absurd (by simp [same]) absent
    | cons x first =>
      have behind : rest = first ++ (pattern ++ after) := (List.cons.inj tail).2
      exact Or.inr ⟨first, after, by rw [behind, List.append_assoc]⟩

omit [DecidableEq α] in
theorem infix_flatten_append {pattern : List α} {lines : List (List α)}
    (all : ∀ line ∈ lines, Line terminator line) (absent : terminator ∉ pattern)
    (rest : List α) :
    pattern <:+: lines.flatten ++ rest ↔ pattern <:+: lines.flatten ∨ pattern <:+: rest := by
  constructor
  · intro found
    cases lines using List.reverseRecOn with
    | nil => exact Or.inr (by simpa using found)
    | append_singleton lines line =>
      obtain ⟨text, _, rfl⟩ := all line (by simp)
      have cut : (lines ++ [text ++ [terminator]]).flatten ++ rest =
          (lines.flatten ++ text) ++ terminator :: rest := by simp
      rw [cut] at found
      refine (infix_of_terminated absent found).imp_left fun inFront => ?_
      exact inFront.trans ⟨[], [terminator], by simp⟩
  · rintro (inFront | inRest)
    · exact inFront.trans List.infix_append_left
    · exact inRest.trans List.infix_append_right

end HyperionNg.Library.Lines
