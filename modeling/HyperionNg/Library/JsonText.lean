import Mathlib.Tactic

/-! The strings of a JSON text. A writer puts each between quotes, with escapes
of the characters that need one; a reader takes every escape the grammar has.
A character that a writer never escapes, the solidus, stands in the text where
it stands in the strings. -/

namespace HyperionNg.Library.JsonText

def Single {α : Type} (a : α) (text : List α) : Prop :=
  text.IsChain fun x y => ¬(x = a ∧ y = a)

instance {α : Type} [DecidableEq α] (a : α) (text : List α) : Decidable (Single a text) :=
  inferInstanceAs (Decidable (text.IsChain _))

section Single

variable {α : Type} {a b : α} {front text : List α}

theorem single_iff_not_infix : Single a text ↔ ¬[a, a] <:+: text := by
  rw [Single, List.isChain_iff_forall_rel_of_append_cons_cons]
  constructor
  · rintro apart ⟨front, rest, rfl⟩
    exact apart (List.append_assoc front [a, a] rest) ⟨rfl, rfl⟩
  · rintro absent x y front rest rfl ⟨rfl, rfl⟩
    exact absent ⟨front, rest, by simp⟩

@[simp] theorem single_nil : Single a [] := List.IsChain.nil

theorem single_cons :
    Single a (b :: text) ↔ (b = a → text.head? ≠ some a) ∧ Single a text := by
  simp only [Single, List.isChain_cons, Option.mem_def, not_and, ne_eq]
  refine and_congr_left fun _ => ⟨fun apart here first => apart a first here rfl, ?_⟩
  rintro apart y first here rfl
  exact apart here first

theorem single_cons_of_ne (other : b ≠ a) : Single a (b :: text) ↔ Single a text := by
  simp [single_cons, other]

theorem single_append_of_notMem (others : a ∉ front) :
    Single a (front ++ text) ↔ Single a text := by
  induction front with
  | nil => rfl
  | cons b front ih =>
    obtain ⟨other, others⟩ := not_or.mp (mt List.mem_cons.mpr others)
    rw [List.cons_append, single_cons_of_ne (Ne.symm other), ih others]

theorem single_append_cons (other : b ≠ a) :
    Single a (front ++ b :: text) ↔ Single a front ∧ Single a text := by
  induction front with
  | nil => simp [single_cons_of_ne other]
  | cons c front ih =>
    rw [List.cons_append, single_cons, single_cons, ih]
    cases front with
    | nil => simp [other]
    | cons d front => simp [and_assoc]

end Single

/-! ### Writing -/

def hexDigits : List Char :=
  ['0', '1', '2', '3', '4', '5', '6', '7', '8', '9', 'a', 'b', 'c', 'd', 'e', 'f']

def shortEscapes : List (Char × Char) :=
  [('"', '"'), ('\\', '\\'), ('\x08', 'b'), ('\x0c', 'f'), ('\n', 'n'), ('\r', 'r'), ('\t', 't')]

def escape (c : Char) : List Char :=
  match shortEscapes.lookup c with
  | some letter => ['\\', letter]
  | none =>
    if c.toNat < 32 then
      ['\\', 'u', '0', '0', hexDigits.getD (c.toNat / 16) '0', hexDigits.getD (c.toNat % 16) '0']
    else [c]

def quoted (content : List Char) : List Char := '"' :: content.flatMap escape ++ ['"']

def layoutChars : List Char := " \n\t\r\x7b\x7d[],:+-.0123456789eEtrufalsn".toList

inductive Written : List String → List Char → Prop
  | layout {piece : List Char} (layout : piece ⊆ layoutChars) : Written [] piece
  | string {piece text : List Char} {s : String} {strings : List String}
      (layout : piece ⊆ layoutChars) (later : Written strings text) :
      Written (s :: strings) (piece ++ quoted s.toList ++ text)

theorem escape_cases (c : Char) :
    (escape c = [c] ∧ c ≠ '"' ∧ c ≠ '\\' ∧ 32 ≤ c.toNat) ∨
    (c ≠ '/' ∧ ∃ letter ∈ shortEscapes.map Prod.snd, escape c = ['\\', letter]) ∨
    (c ≠ '/' ∧ ∃ high low, high ∈ ['0', '1'] ∧ low ∈ hexDigits ∧
      escape c = ['\\', 'u', '0', '0', high, low]) := by
  rw [escape]
  cases found : shortEscapes.lookup c with
  | some letter =>
    obtain ⟨_, _, same, -⟩ := List.lookup_eq_some_iff.mp found
    have mem : (c, letter) ∈ shortEscapes := by simp [same]
    refine Or.inr (Or.inl ⟨?_, letter, List.mem_map_of_mem mem, rfl⟩)
    rintro rfl
    have none : shortEscapes.lookup '/' = none := by decide
    simp [none] at found
  | none =>
    simp only
    split_ifs with control
    · refine Or.inr (Or.inr ⟨?_, _, _, ?_, ?_, rfl⟩)
      · rintro rfl
        exact absurd control (by decide)
      · have half : c.toNat / 16 < 2 := by omega
        interval_cases c.toNat / 16 <;> decide
      · have digit : c.toNat % 16 < hexDigits.length := Nat.mod_lt _ (by decide)
        rw [List.getD_eq_getElem?_getD, List.getElem?_eq_getElem digit]
        exact List.getElem_mem digit
    · refine Or.inl ⟨rfl, ?_, ?_, not_lt.mp control⟩
      · rintro rfl
        exact absurd found (by decide)
      · rintro rfl
        exact absurd found (by decide)

theorem notMem_layoutChars : '/' ∉ layoutChars ∧ '\\' ∉ layoutChars ∧ '\x00' ∉ layoutChars := by
  decide

theorem escape_eq_or_notMem (c : Char) : escape c = [c] ∨ c ≠ '/' ∧ '/' ∉ escape c := by
  rcases escape_cases c with ⟨same, -⟩ | ⟨other, letter, mem, same⟩ |
    ⟨other, high, low, highMem, lowMem, same⟩
  · exact Or.inl same
  · have letter_ne : letter ≠ '/' := ne_of_mem_of_not_mem mem (by decide)
    exact Or.inr ⟨other, by simp [same, letter_ne.symm]⟩
  · have high_ne : high ≠ '/' := ne_of_mem_of_not_mem highMem (by decide)
    have low_ne : low ≠ '/' := ne_of_mem_of_not_mem lowMem (by decide)
    exact Or.inr ⟨other, by simp [same, high_ne.symm, low_ne.symm]⟩

private theorem escape_ne_nil (c : Char) : escape c ≠ [] := by
  rcases escape_cases c with ⟨same, -⟩ | ⟨-, letter, -, same⟩ | ⟨-, high, low, -, -, same⟩ <;>
    simp [same]

theorem head_flatMap_escape (content : List Char) :
    (content.flatMap escape).head? = some '/' ↔ content.head? = some '/' := by
  cases content with
  | nil => rfl
  | cons c rest =>
    rw [List.flatMap_cons, List.head?_cons]
    rcases escape_eq_or_notMem c with same | ⟨other, absent⟩
    · rw [same]
      rfl
    · obtain ⟨first, rest, cons⟩ := List.exists_cons_of_ne_nil (escape_ne_nil c)
      rw [cons] at absent
      simp [cons, other, (List.ne_of_not_mem_cons absent).symm]

theorem single_flatMap_escape (content : List Char) :
    Single '/' (content.flatMap escape) ↔ Single '/' content := by
  induction content with
  | nil => rfl
  | cons c rest ih =>
    rw [List.flatMap_cons]
    rcases escape_eq_or_notMem c with same | ⟨other, absent⟩
    · rw [same, List.singleton_append, single_cons, single_cons, ih]
      simp only [ne_eq, head_flatMap_escape]
    · rw [single_append_of_notMem absent, single_cons_of_ne other, ih]

theorem Written.single_iff {strings : List String} {text : List Char}
    (written : Written strings text) :
    Single '/' text ↔ ∀ s ∈ strings, Single '/' s.toList := by
  induction written with
  | @layout piece layout =>
    have absent : '/' ∉ piece := fun mem => notMem_layoutChars.1 (layout mem)
    have none : Single '/' (piece ++ []) := (single_append_of_notMem absent).mpr single_nil
    simpa using none
  | @string piece text s strings layout later ih =>
    have absent : '/' ∉ piece := fun mem => notMem_layoutChars.1 (layout mem)
    have quote : '"' ≠ '/' := by decide
    have parts : piece ++ quoted s.toList ++ text =
        piece ++ '"' :: (s.toList.flatMap escape ++ '"' :: text) := by
      simp [quoted]
    rw [parts, single_append_of_notMem absent, single_cons_of_ne quote,
      single_append_cons quote, single_flatMap_escape, ih, List.forall_mem_cons]

theorem Written.notMem_null {strings : List String} {text : List Char}
    (written : Written strings text) : '\x00' ∉ text := by
  have escaped : ∀ c, '\x00' ∉ escape c := by
    intro c
    rcases escape_cases c with ⟨same, -, -, printed⟩ | ⟨-, letter, mem, same⟩ |
      ⟨-, high, low, highMem, lowMem, same⟩
    · have other : c ≠ '\x00' := by
        rintro rfl
        exact absurd printed (by decide)
      simp [same, other.symm]
    · have other : letter ≠ '\x00' := ne_of_mem_of_not_mem mem (by decide)
      simp [same, other.symm]
    · have high_ne : high ≠ '\x00' := ne_of_mem_of_not_mem highMem (by decide)
      have low_ne : low ≠ '\x00' := ne_of_mem_of_not_mem lowMem (by decide)
      simp [same, high_ne.symm, low_ne.symm]
  induction written with
  | layout layout => exact fun mem => notMem_layoutChars.2.2 (layout mem)
  | @string piece text s strings layout later ih =>
    have absent : '\x00' ∉ piece := fun mem => notMem_layoutChars.2.2 (layout mem)
    simp [quoted, absent, ih, escaped]

inductive WellEscaped : List Char → Prop
  | nil : WellEscaped []
  | plain {c : Char} {text : List Char} (other : c ≠ '\\') (later : WellEscaped text) :
      WellEscaped (c :: text)
  | short {letter : Char} {text : List Char} (mem : letter ∈ shortEscapes.map Prod.snd)
      (later : WellEscaped text) : WellEscaped ('\\' :: letter :: text)
  | control {high low : Char} {text : List Char} (highMem : high ∈ ['0', '1'])
      (lowMem : low ∈ hexDigits) (later : WellEscaped text) :
      WellEscaped ('\\' :: 'u' :: '0' :: '0' :: high :: low :: text)

theorem WellEscaped.append {front text : List Char} (absent : '\\' ∉ front)
    (later : WellEscaped text) : WellEscaped (front ++ text) := by
  induction front with
  | nil => exact later
  | cons c front ih =>
    obtain ⟨other, absent⟩ := not_or.mp (mt List.mem_cons.mpr absent)
    exact .plain (Ne.symm other) (ih absent)

theorem WellEscaped.flatMap_escape (content : List Char) {text : List Char}
    (later : WellEscaped text) : WellEscaped (content.flatMap escape ++ text) := by
  induction content with
  | nil => exact later
  | cons c content ih =>
    rw [List.flatMap_cons, List.append_assoc]
    rcases escape_cases c with ⟨same, -, other, -⟩ | ⟨-, letter, mem, same⟩ |
      ⟨-, high, low, highMem, lowMem, same⟩
    · rw [same]
      exact .plain other ih
    · rw [same]
      exact .short mem ih
    · rw [same]
      exact .control highMem lowMem ih

theorem Written.wellEscaped {strings : List String} {text : List Char}
    (written : Written strings text) : WellEscaped text := by
  induction written with
  | @layout piece layout =>
    have absent : '\\' ∉ piece := fun mem => notMem_layoutChars.2.1 (layout mem)
    simpa using WellEscaped.append absent .nil
  | @string piece text s strings layout later ih =>
    have absent : '\\' ∉ piece := fun mem => notMem_layoutChars.2.1 (layout mem)
    have body := WellEscaped.flatMap_escape s.toList (.plain (c := '"') (by decide) ih)
    have whole := WellEscaped.append absent (.plain (c := '"') (by decide) body)
    simpa [quoted] using whole

/-! ### Reading -/

def hexValues : List (Char × Nat) := hexDigits.zipIdx ++ "ABCDEF".toList.zipIdx 10

def codeUnit : List Char → Option Nat
  | [a, b, c, d] => do
    let a ← hexValues.lookup a
    let b ← hexValues.lookup b
    let c ← hexValues.lookup c
    let d ← hexValues.lookup d
    some (((a * 16 + b) * 16 + c) * 16 + d)
  | _ => none

/-- A letter with no meaning of its own stands for itself. -/
def unescape (letter : Char) : Char :=
  ((shortEscapes.find? fun p => p.2 = letter).map Prod.fst).getD letter

inductive Encodes : List Char → List Char → Prop
  | nil : Encodes [] []
  | plain {c : Char} {text content : List Char} (quote : c ≠ '"') (backslash : c ≠ '\\')
      (later : Encodes text content) : Encodes (c :: text) (c :: content)
  | letter {letter : Char} {text content : List Char} (other : letter ≠ 'u')
      (later : Encodes text content) :
      Encodes ('\\' :: letter :: text) (unescape letter :: content)
  | unit {digits text content : List Char} {value : Nat} (code : codeUnit digits = some value)
      (scalar : value.isValidChar) (later : Encodes text content) :
      Encodes ('\\' :: 'u' :: (digits ++ text)) (Char.ofNat value :: content)
  | pair {digits others text content : List Char} {high low : Nat}
      (highCode : codeUnit digits = some high) (lowCode : codeUnit others = some low)
      (highRange : 0xD800 ≤ high ∧ high < 0xDC00) (lowRange : 0xDC00 ≤ low ∧ low < 0xE000)
      (later : Encodes text content) :
      Encodes ('\\' :: 'u' :: (digits ++ '\\' :: 'u' :: (others ++ text)))
        (Char.ofNat (0x10000 + (high - 0xD800) * 0x400 + (low - 0xDC00)) :: content)

def HasString (text : List Char) (s : String) : Prop :=
  ∃ inner, ('"' :: inner ++ ['"']) <:+: text ∧ Encodes inner s.toList

private theorem shortEscapes_facts : ∀ p ∈ shortEscapes, unescape p.2 = p.1 ∧ p.2 ≠ 'u' := by
  decide

private theorem codeUnit_control : ∀ n < 32, codeUnit
    ['0', '0', hexDigits.getD (n / 16) '0', hexDigits.getD (n % 16) '0'] = some n := by
  decide

theorem Encodes.escape (c : Char) {text content : List Char} (later : Encodes text content) :
    Encodes (escape c ++ text) (c :: content) := by
  rw [JsonText.escape]
  cases found : shortEscapes.lookup c with
  | some letter =>
    obtain ⟨_, _, same, -⟩ := List.lookup_eq_some_iff.mp found
    have mem : (c, letter) ∈ shortEscapes := by simp [same]
    obtain ⟨back, other⟩ := shortEscapes_facts _ mem
    have read := later.letter other
    rwa [back] at read
  | none =>
    simp only
    split_ifs with control
    · have read := later.unit (codeUnit_control c.toNat control)
        (Or.inl (control.trans (by decide)))
      rwa [Char.ofNat_toNat] at read
    · refine .plain ?_ ?_ later
      · rintro rfl
        exact absurd found (by decide)
      · rintro rfl
        exact absurd found (by decide)

private theorem encodes_flatMap_escape (content : List Char) :
    Encodes (content.flatMap escape) content := by
  induction content with
  | nil => exact .nil
  | cons c content ih => exact ih.escape c

theorem Written.hasString {strings : List String} {text : List Char}
    (written : Written strings text) : ∀ s ∈ strings, HasString text s := by
  induction written with
  | layout => simp
  | @string piece text s strings layout later ih =>
    refine List.forall_mem_cons.mpr ⟨?_, fun other mem => ?_⟩
    · exact ⟨_, ⟨piece, text, rfl⟩, encodes_flatMap_escape s.toList⟩
    · obtain ⟨inner, inside, encodes⟩ := ih other mem
      exact ⟨inner, inside.trans (List.suffix_append _ _).isInfix, encodes⟩

def PlainSolidus : List Char → Prop
  | [] => True
  | [_] => True
  | c :: x :: rest =>
    if c = '\\' then
      x ≠ '/' ∧ (x = 'u' → codeUnit (rest.take 4) ≠ some '/'.toNat) ∧ PlainSolidus rest
    else PlainSolidus (x :: rest)

theorem plainSolidus_cons_of_ne {c : Char} {text : List Char} (other : c ≠ '\\') :
    PlainSolidus (c :: text) ↔ PlainSolidus text := by
  cases text with
  | nil => simp [PlainSolidus]
  | cons x rest => rw [PlainSolidus, if_neg other]

theorem plainSolidus_append {front text : List Char} (absent : '\\' ∉ front) :
    PlainSolidus (front ++ text) ↔ PlainSolidus text := by
  induction front with
  | nil => rfl
  | cons c front ih =>
    obtain ⟨other, absent⟩ := not_or.mp (mt List.mem_cons.mpr absent)
    rw [List.cons_append, plainSolidus_cons_of_ne (Ne.symm other), ih absent]

theorem plainSolidus_escape {x : Char} {text : List Char} :
    PlainSolidus ('\\' :: x :: text) ↔
      x ≠ '/' ∧ (x = 'u' → codeUnit (text.take 4) ≠ some '/'.toNat) ∧ PlainSolidus text := by
  rw [PlainSolidus, if_pos rfl]

theorem PlainSolidus.after_quote {front text : List Char}
    (plain : PlainSolidus (front ++ '"' :: text)) : PlainSolidus text := by
  induction front using PlainSolidus.induct with
  | case1 => exact (plainSolidus_cons_of_ne (by decide)).mp plain
  | case2 c =>
    by_cases escape : c = '\\'
    · subst escape
      exact (plainSolidus_escape.mp plain).2.2
    · exact (plainSolidus_cons_of_ne (by decide)).mp
        ((plainSolidus_cons_of_ne escape).mp plain)
  | case3 x front ih => exact ih (plainSolidus_escape.mp plain).2.2
  | case4 c x front other ih => exact ih ((plainSolidus_cons_of_ne other).mp plain)

theorem mem_of_hexValue {c : Char} {value : Nat} (found : hexValues.lookup c = some value) :
    (c, value) ∈ hexValues := by
  obtain ⟨_, _, same, -⟩ := List.lookup_eq_some_iff.mp found
  simp [same]

theorem hexValues_facts : ∀ p ∈ hexValues, p.1 ≠ '\\' ∧ p.2 < 16 ∧
    (p.2 = 0 → p.1 = '0') ∧ (p.2 = 2 → p.1 = '2') := by
  decide

theorem codeUnit_cases {digits : List Char} {value : Nat} (code : codeUnit digits = some value) :
    digits.length = 4 ∧ '\\' ∉ digits ∧ (value = '/'.toNat → digits[2]? = some '2') := by
  unfold codeUnit at code
  split at code
  · rename_i a b c d
    obtain ⟨a', ha, code⟩ := Option.bind_eq_some_iff.mp code
    obtain ⟨b', hb, code⟩ := Option.bind_eq_some_iff.mp code
    obtain ⟨c', hc, code⟩ := Option.bind_eq_some_iff.mp code
    obtain ⟨d', hd, code⟩ := Option.bind_eq_some_iff.mp code
    have value_eq := Option.some.inj code
    obtain ⟨notA, ltA, -, -⟩ := hexValues_facts _ (mem_of_hexValue ha)
    obtain ⟨notB, ltB, -, -⟩ := hexValues_facts _ (mem_of_hexValue hb)
    obtain ⟨notC, ltC, -, two⟩ := hexValues_facts _ (mem_of_hexValue hc)
    obtain ⟨notD, ltD, -, -⟩ := hexValues_facts _ (mem_of_hexValue hd)
    refine ⟨rfl, ?_, fun solidus => ?_⟩
    · simp [notA.symm, notB.symm, notC.symm, notD.symm]
    · have sum : ((a' * 16 + b') * 16 + c') * 16 + d' = 47 := value_eq.trans solidus
      exact congrArg some (two (by omega))
  · cases code

theorem unescape_ne {letter : Char} (other : letter ≠ '/') : unescape letter ≠ '/' := by
  unfold unescape
  cases found : shortEscapes.find? fun p => p.2 = letter with
  | none => simpa using other
  | some p =>
    have contents : ∀ p ∈ shortEscapes, p.1 ≠ '/' := by decide
    simpa using contents p (List.mem_of_find?_eq_some found)

theorem ofNat_ne_solidus {value : Nat} (other : value ≠ '/'.toNat) : Char.ofNat value ≠ '/' := by
  intro same
  by_cases valid : value.isValidChar
  · have number : (Char.ofNat value).toNat = value := by
      rw [Char.ofNat, dif_pos valid]
      rfl
    exact other (number.symm.trans (congrArg Char.toNat same))
  · have null : Char.ofNat value = '\x00' := by
      rw [Char.ofNat, dif_neg valid]
      rfl
    exact absurd (null.symm.trans same) (by decide)

theorem Single.of_append {α : Type} {a : α} (front : List α) {text : List α}
    (single : Single a (front ++ text)) : Single a text :=
  List.IsChain.right_of_append single

theorem Encodes.single {text content rest : List Char} (encodes : Encodes text content)
    (plain : PlainSolidus (text ++ rest)) (single : Single '/' text) :
    (content.head? = some '/' → text.head? = some '/') ∧ Single '/' content := by
  induction encodes with
  | nil => exact ⟨id, single⟩
  | @plain c text content quote backslash later ih =>
    obtain ⟨apart, single⟩ := single_cons.mp single
    obtain ⟨head, singleContent⟩ := ih ((plainSolidus_cons_of_ne backslash).mp plain) single
    exact ⟨id, single_cons.mpr ⟨fun here first => apart here (head first), singleContent⟩⟩
  | @letter letter text content other later ih =>
    obtain ⟨solidus, -, plain⟩ := plainSolidus_escape.mp plain
    have single : Single '/' text := Single.of_append ['\\', letter] single
    have absent := unescape_ne solidus
    exact ⟨fun first => absurd (Option.some.inj first) absent,
      (single_cons_of_ne absent).mpr (ih plain single).2⟩
  | @unit digits text content value code scalar later ih =>
    obtain ⟨length, absent, -⟩ := codeUnit_cases code
    rw [List.cons_append, List.cons_append, List.append_assoc] at plain
    obtain ⟨-, unit, plain⟩ := plainSolidus_escape.mp plain
    rw [List.take_left' length, code] at unit
    have other : Char.ofNat value ≠ '/' := ofNat_ne_solidus fun same =>
      unit rfl (congrArg some same)
    have single : Single '/' text :=
      Single.of_append ('\\' :: 'u' :: digits) (by simpa using single)
    exact ⟨fun first => absurd (Option.some.inj first) other, (single_cons_of_ne other).mpr
      (ih ((plainSolidus_append absent).mp plain) single).2⟩
  | @pair digits others text content high low highCode lowCode highRange lowRange later ih =>
    obtain ⟨-, absent, -⟩ := codeUnit_cases highCode
    obtain ⟨-, absentLow, -⟩ := codeUnit_cases lowCode
    simp only [List.cons_append, List.append_assoc] at plain
    obtain ⟨-, -, plain⟩ := plainSolidus_escape.mp plain
    obtain ⟨-, -, plain⟩ := plainSolidus_escape.mp ((plainSolidus_append absent).mp plain)
    have other : Char.ofNat (0x10000 + (high - 0xD800) * 0x400 + (low - 0xDC00)) ≠ '/' :=
      ofNat_ne_solidus (by change _ ≠ 47; omega)
    have single : Single '/' text := Single.of_append
      ('\\' :: 'u' :: (digits ++ '\\' :: 'u' :: others)) (by simpa using single)
    exact ⟨fun first => absurd (Option.some.inj first) other, (single_cons_of_ne other).mpr
      (ih ((plainSolidus_append absentLow).mp plain) single).2⟩

theorem HasString.single {text : List Char} {s : String} (has : HasString text s)
    (plain : PlainSolidus text) (single : Single '/' text) : Single '/' s.toList := by
  obtain ⟨inner, ⟨front, rest, rfl⟩, encodes⟩ := has
  have parts : front ++ ('"' :: inner ++ ['"']) ++ rest =
      front ++ '"' :: (inner ++ '"' :: rest) := by
    simp
  rw [parts] at plain single
  have body := ((single_append_cons (by decide)).mp single).2
  exact (encodes.single plain.after_quote ((single_append_cons (by decide)).mp body).1).2

end HyperionNg.Library.JsonText
