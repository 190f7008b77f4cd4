import Mathlib.Computability.RegularExpressions
import Mathlib.Data.Char
import Mathlib.Tactic

/-! Regular expressions the way programs write them: character classes, `+`
and `?`, with what each of them matches. -/

namespace HyperionNg.Library.Pattern

open RegularExpression

variable {α : Type}

/-- `[abc]` -/
def oneOf (letters : List α) : RegularExpression α := (letters.map char).sum

/-- `P+` -/
def oneOrMore (P : RegularExpression α) : RegularExpression α := P * P.star

/-- `P?` -/
def optional (P : RegularExpression α) : RegularExpression α := P + 1

theorem mem_oneOf {letters text : List α} :
    text ∈ (oneOf letters).matches' ↔ ∃ a ∈ letters, text = [a] := by
  induction letters with
  | nil => simp [oneOf, matches'_zero, Language.notMem_zero]
  | cons letter rest ih =>
    have head : text ∈ (oneOf (letter :: rest)).matches' ↔
        text = [letter] ∨ text ∈ (oneOf rest).matches' := by
      simp only [oneOf, List.map_cons, List.sum_cons, matches'_add, matches'_char,
        Language.mem_add]
      exact Iff.rfl
    rw [head, ih]
    simp

theorem mem_optional {P : RegularExpression α} {text : List α} :
    text ∈ (optional P).matches' ↔ text ∈ P.matches' ∨ text = [] := by
  rw [optional, matches'_add, Language.mem_add, matches'_epsilon, Language.mem_one]

theorem mem_mul {P Q : RegularExpression α} {text : List α} :
    text ∈ (P * Q).matches' ↔
      ∃ left ∈ P.matches', ∃ right ∈ Q.matches', left ++ right = text := by
  rw [matches'_mul, Language.mem_mul]

theorem mem_char_mul {a : α} {P : RegularExpression α} {text : List α} :
    text ∈ (char a * P).matches' ↔ ∃ rest ∈ P.matches', text = a :: rest := by
  rw [mem_mul, matches'_char]
  constructor
  · intro ⟨left, hleft, rest, hrest, joined⟩
    have single : left = [a] := hleft
    subst single
    exact ⟨rest, hrest, joined.symm⟩
  · intro ⟨rest, hrest, cons⟩
    exact ⟨[a], rfl, rest, hrest, cons.symm⟩

theorem nil_mem_star (P : RegularExpression α) : [] ∈ P.star.matches' :=
  Language.nil_mem_kstar P.matches'

theorem append_mem_star {P : RegularExpression α} {left right : List α}
    (head : left ∈ P.matches') (tail : right ∈ P.star.matches') :
    left ++ right ∈ P.star.matches' := by
  obtain ⟨parts, flat, all⟩ := Language.mem_kstar.mp tail
  refine Language.mem_kstar.mpr ⟨left :: parts, by simp [flat], ?_⟩
  intro part hpart
  cases List.mem_cons.mp hpart with
  | inl first => exact first ▸ head
  | inr later => exact all part later

theorem star_induction {P : RegularExpression α} {motive : List α → Prop} (nil : motive [])
    (append : ∀ left right, left ∈ P.matches' → motive right → motive (left ++ right))
    {text : List α} (matched : text ∈ P.star.matches') : motive text := by
  obtain ⟨parts, flat, all⟩ := Language.mem_kstar.mp matched
  clear matched
  subst flat
  induction parts with
  | nil => exact nil
  | cons part rest ih =>
    have later := ih fun y hy => all y (by simp [hy])
    exact append part rest.flatten (all part (by simp)) later

theorem mem_star_class {P : RegularExpression α} {letter : α → Prop}
    (single : ∀ text, text ∈ P.matches' ↔ ∃ a, letter a ∧ text = [a]) {text : List α} :
    text ∈ P.star.matches' ↔ ∀ a ∈ text, letter a := by
  constructor
  · intro matched
    refine star_induction (motive := fun text => ∀ a ∈ text, letter a) ?_ ?_ matched
    · simp
    intro left right hleft hright
    obtain ⟨a, ha, rfl⟩ := (single left).mp hleft
    simpa [ha] using hright
  · intro all
    induction text with
    | nil => exact nil_mem_star P
    | cons a rest ih =>
      have head : [a] ∈ P.matches' := (single [a]).mpr ⟨a, all a (by simp), rfl⟩
      exact append_mem_star head (ih fun b hb => all b (by simp [hb]))

theorem mem_oneOrMore_class {P : RegularExpression α} {letter : α → Prop}
    (single : ∀ text, text ∈ P.matches' ↔ ∃ a, letter a ∧ text = [a]) {text : List α} :
    text ∈ (oneOrMore P).matches' ↔ text ≠ [] ∧ ∀ a ∈ text, letter a := by
  rw [oneOrMore, mem_mul]
  constructor
  · intro ⟨left, hleft, right, hright, joined⟩
    obtain ⟨a, ha, rfl⟩ := (single left).mp hleft
    have all := (mem_star_class single).mp hright
    rw [← joined]
    exact ⟨by simp, by simpa [ha] using all⟩
  · intro ⟨nonempty, all⟩
    cases text with
    | nil => exact absurd rfl nonempty
    | cons a rest =>
      have head : [a] ∈ P.matches' := (single [a]).mpr ⟨a, all a (by simp), rfl⟩
      have tail : rest ∈ P.star.matches' :=
        (mem_star_class single).mpr fun b hb => all b (by simp [hb])
      exact ⟨[a], head, rest, tail, rfl⟩

theorem toNat_of_isDigit {c : Char} (digit : c.isDigit = true) :
    48 ≤ c.toNat ∧ c.toNat ≤ 57 := by
  simpa [Char.isDigit, UInt32.le_iff_toNat_le] using digit

theorem mem_digits {c : Char} :
    c ∈ ['0', '1', '2', '3', '4', '5', '6', '7', '8', '9'] ↔ c.isDigit = true := by
  constructor
  · intro digit
    simp only [List.mem_cons, List.not_mem_nil, or_false] at digit
    rcases digit with h | h | h | h | h | h | h | h | h | h <;> (subst h; decide)
  · intro digit
    have code : c = Char.ofNat c.toNat := (Char.ofNat_toNat c).symm
    obtain ⟨low, high⟩ := toNat_of_isDigit digit
    generalize c.toNat = n at code low high
    subst code
    interval_cases n <;> decide

end HyperionNg.Library.Pattern
