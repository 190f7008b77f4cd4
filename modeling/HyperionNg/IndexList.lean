import HyperionNg.Image
import HyperionNg.Library.Pattern
import Mathlib.Data.List.DropRight

/-! LED index lists such as `0-5, 9, 12-17`: what a list says, and how the
code reads one. A text is the list of its characters. -/

namespace HyperionNg

namespace QString

/-- `QChar::isSpace` -/
def isSpace (c : Char) : Bool :=
  (9 ≤ c.toNat && c.toNat ≤ 13) || (0x2000 ≤ c.toNat && c.toNat ≤ 0x200A) ||
    [0x20, 0x85, 0xA0, 0x1680, 0x2028, 0x2029, 0x202F, 0x205F, 0x3000].contains c.toNat

def trimmed (text : List Char) : List Char := (text.dropWhile isSpace).rdropWhile isSpace

def decimal (digits : List Char) : Nat :=
  digits.foldl (fun value c => 10 * value + (c.toNat - '0'.toNat)) 0

def unsignedDecimal (text : List Char) : Option Nat :=
  if text ≠ [] ∧ text.all Char.isDigit then some (decimal text) else none

def signedDecimal : List Char → Option Int
  | '-' :: digits => (unsignedDecimal digits).map fun n => -(n : Int)
  | '+' :: digits => (unsignedDecimal digits).map Nat.cast
  | digits => (unsignedDecimal digits).map Nat.cast

/-- What is not a number, or does not fit, reads as 0. -/
def toInt (text : List Char) : Int :=
  match signedDecimal (trimmed text) with
  | some n => if -2 ^ 31 ≤ n ∧ n < 2 ^ 31 then n else 0
  | none => 0

end QString

namespace IndexList

open QString RegularExpression Library.Pattern

/-! The expression `([0-9]+(\-[0-9]+)?)(,[ ]*([0-9]+(\-[0-9]+)?))*`. -/

def digitExp : RegularExpression Char :=
  oneOf ['0', '1', '2', '3', '4', '5', '6', '7', '8', '9']

def itemExp : RegularExpression Char :=
  oneOrMore digitExp * optional (char '-' * oneOrMore digitExp)

def moreExp : RegularExpression Char := char ',' * ((oneOf [' ']).star * itemExp)

def overallExp : RegularExpression Char := itemExp * moreExp.star

/-- One element of `ledIndexList`: the first and the last index. A text with a
`-` splits into two parts at least. -/
def readItem (item : List Char) : Int × Int :=
  if item.contains '-' then
    let ledIndices := item.splitOn '-'
    (toInt (ledIndices.getD 0 []), toInt (ledIndices.getD 1 []))
  else (toInt item, toInt item)

def readItems (ledIndicesStr : List Char) : List (Int × Int) :=
  (ledIndicesStr.splitOn ',').map readItem

structure Numeral (text : List Char) (n : Nat) : Prop where
  nonempty : text ≠ []
  digits : ∀ c ∈ text, c.isDigit = true
  value : decimal text = n

inductive Item : List Char → Nat → Nat → Prop
  | single {text : List Char} {n : Nat} (numeral : Numeral text n) : Item text n n
  | range {left right : List Char} {first last : Nat} (from_ : Numeral left first)
      (to_ : Numeral right last) : Item (left ++ '-' :: right) first last

inductive Lists : List Char → List (Nat × Nat) → Prop
  | one {text : List Char} {first last : Nat} (item : Item text first last) :
      Lists text [(first, last)]
  | more {text rest : List Char} {first last : Nat} {ranges : List (Nat × Nat)} (blanks : Nat)
      (item : Item text first last) (tail : Lists rest ranges) :
      Lists (text ++ ',' :: (List.replicate blanks ' ' ++ rest)) ((first, last) :: ranges)

/-! The expression matches the index lists. -/

private theorem mem_digitExp {text : List Char} :
    text ∈ digitExp.matches' ↔ ∃ c, c.isDigit = true ∧ text = [c] := by
  simp only [digitExp, mem_oneOf, mem_digits]

theorem mem_numberExp {text : List Char} :
    text ∈ (oneOrMore digitExp).matches' ↔ ∃ n, Numeral text n := by
  rw [mem_oneOrMore_class fun text => mem_digitExp]
  constructor
  · intro ⟨nonempty, digits⟩
    exact ⟨decimal text, nonempty, digits, rfl⟩
  · intro ⟨n, numeral⟩
    exact ⟨numeral.nonempty, numeral.digits⟩

theorem mem_itemExp {text : List Char} :
    text ∈ itemExp.matches' ↔ ∃ first last, Item text first last := by
  rw [itemExp, mem_mul]
  simp only [mem_optional, mem_char_mul, mem_numberExp]
  constructor
  · intro ⟨left, ⟨first, hleft⟩, right, hright, joined⟩
    cases hright with
    | inl range =>
      obtain ⟨digits, ⟨last, hlast⟩, rfl⟩ := range
      exact ⟨first, last, joined ▸ .range hleft hlast⟩
    | inr none =>
      subst none
      rw [List.append_nil] at joined
      exact ⟨first, first, joined ▸ .single hleft⟩
  · intro ⟨first, last, item⟩
    cases item with
    | single numeral => exact ⟨text, ⟨first, numeral⟩, [], Or.inr rfl, List.append_nil text⟩
    | @range left right _ _ hleft hright =>
      exact ⟨left, ⟨first, hleft⟩, '-' :: right, Or.inl ⟨right, ⟨last, hright⟩, rfl⟩, rfl⟩

theorem mem_blanks {text : List Char} :
    text ∈ (oneOf [' ']).star.matches' ↔ ∃ blanks, text = List.replicate blanks ' ' := by
  have single : ∀ text, text ∈ (oneOf [' ']).matches' ↔ ∃ c, c = ' ' ∧ text = [c] := by
    intro text
    simp [mem_oneOf]
  rw [mem_star_class single]
  constructor
  · intro all
    exact ⟨text.length, List.eq_replicate_of_mem all⟩
  · intro ⟨blanks, same⟩ c hc
    exact List.eq_of_mem_replicate (same ▸ hc)

theorem mem_moreExp {text : List Char} :
    text ∈ moreExp.matches' ↔ ∃ blanks rest first last, Item rest first last ∧
      text = ',' :: (List.replicate blanks ' ' ++ rest) := by
  rw [moreExp, mem_char_mul]
  simp only [mem_mul, mem_blanks, mem_itemExp]
  constructor
  · intro ⟨tail, ⟨_, ⟨blanks, rfl⟩, rest, ⟨first, last, item⟩, joined⟩, cons⟩
    exact ⟨blanks, rest, first, last, item, by rw [cons, joined]⟩
  · intro ⟨blanks, rest, first, last, item, cons⟩
    exact ⟨_, ⟨_, ⟨blanks, rfl⟩, rest, ⟨first, last, item⟩, rfl⟩, cons⟩

theorem lists_append_more {tail : List Char} (matched : tail ∈ moreExp.star.matches') :
    ∀ text first last, Item text first last → ∃ ranges, Lists (text ++ tail) ranges := by
  refine star_induction (motive := fun tail => ∀ text first last, Item text first last →
    ∃ ranges, Lists (text ++ tail) ranges) ?_ ?_ matched
  · intro text first last item
    exact ⟨_, by simpa using Lists.one item⟩
  · intro left right hleft ih text first last item
    obtain ⟨blanks, rest, first', last', item', rfl⟩ := mem_moreExp.mp hleft
    obtain ⟨ranges, tail⟩ := ih rest first' last' item'
    exact ⟨_, by simpa using Lists.more blanks item tail⟩

theorem mem_overallExp {text : List Char} :
    text ∈ overallExp.matches' ↔ ∃ ranges, Lists text ranges := by
  rw [overallExp, mem_mul]
  constructor
  · intro ⟨head, hhead, tail, htail, joined⟩
    obtain ⟨first, last, item⟩ := mem_itemExp.mp hhead
    exact joined ▸ lists_append_more htail head first last item
  · intro ⟨ranges, lists⟩
    induction lists with
    | one item =>
      exact ⟨_, mem_itemExp.mpr ⟨_, _, item⟩, [], nil_mem_star _, List.append_nil _⟩
    | more blanks item _ ih =>
      obtain ⟨head, hhead, tail, htail, joined⟩ := ih
      obtain ⟨first, last, item'⟩ := mem_itemExp.mp hhead
      have more := mem_moreExp.mpr ⟨blanks, head, first, last, item', rfl⟩
      refine ⟨_, mem_itemExp.mpr ⟨_, _, item⟩, _, append_mem_star more htail, ?_⟩
      simp [← joined]

/-! What the code reads of an index list. -/

private theorem isSpace_of_isDigit {c : Char} (digit : c.isDigit = true) : isSpace c = false := by
  obtain ⟨low, high⟩ := toNat_of_isDigit digit
  simp [isSpace]
  omega

theorem Numeral.not_mem {text : List Char} {n : Nat} (numeral : Numeral text n) {c : Char}
    (other : c.isDigit = false) : c ∉ text := by
  intro mem
  rw [numeral.digits c mem] at other
  cases other

theorem trimmed_blanks {text : List Char} (solid : ∀ c ∈ text, isSpace c = false)
    (blanks : Nat) : trimmed (List.replicate blanks ' ' ++ text) = text := by
  have front : (List.replicate blanks ' ' ++ text).dropWhile isSpace = text := by
    rw [List.dropWhile_append_of_pos fun c hc => by rw [List.eq_of_mem_replicate hc]; decide]
    cases text with
    | nil => rfl
    | cons c rest => simp [solid c (by simp)]
  rw [trimmed, front]
  cases text using List.reverseRecOn with
  | nil => rfl
  | append_singleton front c => simp [solid c (by simp)]

theorem Numeral.signedDecimal {text : List Char} {n : Nat} (numeral : Numeral text n) :
    signedDecimal text = some (n : Int) := by
  have all : text.all Char.isDigit = true := List.all_eq_true.mpr numeral.digits
  have read : unsignedDecimal text = some n := by
    rw [unsignedDecimal, if_pos ⟨numeral.nonempty, all⟩, numeral.value]
  have minus : '-' ∉ text := numeral.not_mem (by decide)
  have plus : '+' ∉ text := numeral.not_mem (by decide)
  cases text with
  | nil => exact absurd rfl numeral.nonempty
  | cons c rest =>
    have notMinus : c ≠ '-' := fun same => minus (by simp [same])
    have notPlus : c ≠ '+' := fun same => plus (by simp [same])
    simp [QString.signedDecimal, notMinus, notPlus, read]

/-- What `toInt` makes of a number. -/
def asInt (n : Nat) : Nat := if n < 2 ^ 31 then n else 0

theorem asInt_of_lt {n : Nat} (fits : n < 2 ^ 31) : asInt n = n := if_pos fits

theorem asInt_lt (n : Nat) : asInt n < 2 ^ 31 := by
  unfold asInt
  split_ifs with fits
  · exact fits
  · decide

theorem toInt_numeral {text : List Char} {n : Nat} (numeral : Numeral text n) (blanks : Nat) :
    toInt (List.replicate blanks ' ' ++ text) = asInt n := by
  have solid : ∀ c ∈ text, isSpace c = false :=
    fun c hc => isSpace_of_isDigit (numeral.digits c hc)
  rw [toInt, trimmed_blanks solid, numeral.signedDecimal]
  by_cases fits : n < 2 ^ 31
  · rw [asInt_of_lt fits]
    exact if_pos ⟨by omega, by omega⟩
  · rw [asInt, if_neg fits]
    exact if_neg (by omega)

theorem contains_blanks {c : Char} (other : c ≠ ' ') (blanks : Nat) {text : List Char} :
    c ∈ List.replicate blanks ' ' ++ text ↔ c ∈ text := by
  simp [other]

theorem readItem_of_item {text : List Char} {first last : Nat} (item : Item text first last)
    (blanks : Nat) : readItem (List.replicate blanks ' ' ++ text) =
      ((asInt first : Int), (asInt last : Int)) := by
  cases item with
  | single numeral =>
    have absent : '-' ∉ List.replicate blanks ' ' ++ text := by
      rw [contains_blanks (by decide) blanks]
      exact numeral.not_mem (by decide)
    have value := toInt_numeral numeral blanks
    simp only [readItem, List.contains_iff_mem, absent, if_false, value]
  | @range left right _ _ from_ to_ =>
    have present : '-' ∈ List.replicate blanks ' ' ++ (left ++ '-' :: right) := by simp
    have before : '-' ∉ List.replicate blanks ' ' ++ left := by
      rw [contains_blanks (by decide) blanks]
      exact from_.not_mem (by decide)
    have split : (List.replicate blanks ' ' ++ (left ++ '-' :: right)).splitOn '-' =
        [List.replicate blanks ' ' ++ left, right] := by
      rw [← List.append_assoc, List.splitOn_append_cons_self_of_not_mem before,
        List.splitOn_eq_singleton (to_.not_mem (by decide))]
    have start := toInt_numeral from_ blanks
    have stop := toInt_numeral to_ 0
    rw [List.replicate_zero, List.nil_append] at stop
    simp [readItem, split, start, stop]

theorem Item.comma_not_mem {text : List Char} {first last : Nat} (item : Item text first last) :
    ',' ∉ text := by
  cases item with
  | single numeral => exact numeral.not_mem (by decide)
  | range from_ to_ =>
    have left := from_.not_mem (c := ',') (by decide)
    have right := to_.not_mem (c := ',') (by decide)
    simp [left, right]

theorem readItems_asInt {text : List Char} {ranges : List (Nat × Nat)}
    (lists : Lists text ranges) (blanks : Nat) :
    readItems (List.replicate blanks ' ' ++ text) =
      ranges.map fun range => ((asInt range.1 : Int), (asInt range.2 : Int)) := by
  induction lists generalizing blanks with
  | one item =>
    have absent := (contains_blanks (by decide) blanks).not.mpr item.comma_not_mem
    rw [readItems, List.splitOn_eq_singleton absent, List.map_singleton, readItem_of_item item]
    rfl
  | @more text rest first last ranges behind item tail ih =>
    have absent := (contains_blanks (by decide) blanks).not.mpr item.comma_not_mem
    have later := ih behind
    rw [readItems] at later
    rw [readItems, ← List.append_assoc, List.splitOn_append_cons_self_of_not_mem absent,
      List.map_cons, readItem_of_item item, later]
    rfl

theorem readItems_of_lists {text : List Char} {ranges : List (Nat × Nat)}
    (lists : Lists text ranges) (fits : ∀ range ∈ ranges, range.1 < 2 ^ 31 ∧ range.2 < 2 ^ 31)
    (blanks : Nat) : readItems (List.replicate blanks ' ' ++ text) =
      ranges.map fun range => ((range.1 : Int), (range.2 : Int)) := by
  rw [readItems_asInt lists blanks]
  apply List.map_congr_left
  intro range mem
  rw [asInt_of_lt (fits range mem).1, asInt_of_lt (fits range mem).2]

end IndexList

end HyperionNg
