import HyperionNg.Library.Lines
import HyperionNg.Library.Segments

/-! Messages of a start line, header fields and a body, as HTTP/1.1 lays them
out. A head is read line by line up to a blank line, and the body behind it is
as long as a field says. -/

namespace HyperionNg.Library.HttpMessage

open Lines Segments

def lineEnd : UInt8 := 10
def colon : UInt8 := 58
def space : UInt8 := 32
def crlf : List UInt8 := [13, 10]

def blank (b : UInt8) : Bool := b == 32 || (9 ≤ b && b ≤ 13)

def chars (bytes : List UInt8) : List Char := bytes.map fun b => Char.ofNat b.toNat

def bytes (text : List Char) : List UInt8 := text.map fun c => UInt8.ofNat c.toNat

private theorem chars_bytes {text : List Char} (small : ∀ c ∈ text, c.toNat < 256) :
    chars (bytes text) = text := by
  rw [chars, bytes, List.map_map]
  refine (List.map_congr_left fun c mem => ?_).trans (List.map_id _)
  rw [Function.comp_apply, UInt8.toNat_ofNat_of_lt' (small c mem), Char.ofNat_toNat]
  rfl

def decimal (n : Nat) : List UInt8 := bytes (Nat.toDigits 10 n)

def number (digits : List UInt8) : Nat := Nat.ofDigitChars 10 (chars digits) 0

theorem toNat_of_isDigit {c : Char} (digit : c.isDigit = true) : 48 ≤ c.toNat ∧ c.toNat ≤ 57 := by
  simp only [Char.isDigit, ge_iff_le, Bool.and_eq_true, decide_eq_true_eq] at digit
  exact ⟨digit.1, digit.2⟩

theorem chars_decimal (n : Nat) : chars (decimal n) = Nat.toDigits 10 n := by
  refine chars_bytes fun c mem => ?_
  have digit := toNat_of_isDigit (Nat.isDigit_of_mem_toDigits (by decide) (by decide) mem)
  omega

@[simp] theorem number_decimal (n : Nat) : number (decimal n) = n := by
  rw [number, chars_decimal, Nat.ofDigitChars_ten_toDigits]

/-- No line end inside, and no white space around. -/
structure Plain (text : List UInt8) : Prop where
  oneLine : lineEnd ∉ text
  stripped : strip blank text = text

structure Field where
  name : List UInt8
  value : List UInt8
deriving DecidableEq

namespace Field

def line (f : Field) : List UInt8 := f.name ++ colon :: space :: (f.value ++ crlf)

structure WellFormed (f : Field) : Prop where
  name : Plain f.name
  nonempty : f.name ≠ []
  noColon : colon ∉ f.name
  value : Plain f.value

end Field

private theorem strip_crlf (text : List UInt8) : strip blank (text ++ crlf) = strip blank text :=
  strip_append (List.all_eq_true.mp (by decide)) text

theorem strip_line {f : Field} (formed : f.WellFormed) :
    ∃ rest, strip blank f.line = f.name ++ colon :: rest ∧ strip blank rest = f.value := by
  obtain ⟨front, -⟩ := strip_eq_self_iff.mp formed.name.stripped
  obtain ⟨-, back⟩ := strip_eq_self_iff.mp formed.value.stripped
  have head : ∀ rest, ∀ x ∈ (f.name ++ rest).head?, blank x = false := by
    intro rest x mem
    rw [List.head?_append_of_ne_nil _ formed.nonempty] at mem
    exact front x mem
  by_cases empty : f.value = []
  · refine ⟨[], ?_, by rw [empty]; rfl⟩
    have line : f.line = (f.name ++ [colon]) ++ space :: crlf := by simp [Field.line, empty]
    have blanks : (space :: crlf).all blank = true := by decide
    rw [line, strip_append (List.all_eq_true.mp blanks), strip_eq_self_iff]
    refine ⟨head _, fun x mem => ?_⟩
    rw [List.getLast?_concat, Option.mem_some_iff] at mem
    exact mem ▸ by decide
  · refine ⟨space :: f.value, ?_, by rw [strip_cons (by decide), formed.value.stripped]⟩
    have line : f.line = (f.name ++ [colon, space] ++ f.value) ++ crlf := by simp [Field.line]
    have ends : f.name ++ colon :: space :: f.value = f.name ++ [colon, space] ++ f.value := by simp
    rw [line, strip_crlf, ends, List.append_assoc, strip_eq_self_iff, ← List.append_assoc,
      List.getLast?_append_of_ne_nil _ empty, List.append_assoc]
    exact ⟨head _, back⟩

def readField (line : List UInt8) : Option Field :=
  let raw := strip blank line
  let pos := raw.idxOf colon
  if 0 < pos ∧ pos < raw.length then
    some ⟨strip blank (raw.take pos), strip blank (raw.drop (pos + 1))⟩
  else none

private theorem idxOf_colon {name : List UInt8} (noColon : colon ∉ name) (rest : List UInt8) :
    (name ++ colon :: rest).idxOf colon = name.length := by
  rw [List.idxOf_append_of_notMem noColon, List.idxOf_cons_self, Nat.add_zero]

theorem readField_line {f : Field} (formed : f.WellFormed) : readField f.line = some f := by
  obtain ⟨rest, raw, value⟩ := strip_line formed
  have name := List.length_pos_iff.mpr formed.nonempty
  have drop : (f.name ++ colon :: rest).drop (f.name.length + 1) = rest := by
    rw [List.drop_append]
    simp
  rw [readField, raw]
  simp only [idxOf_colon formed.noColon, List.length_append, List.length_cons]
  rw [if_pos ⟨name, by omega⟩, List.take_left, drop, value, formed.name.stripped]

def readLine (text : List UInt8) : List UInt8 × List UInt8 :=
  (text.take (text.idxOf lineEnd + 1), text.drop (text.idxOf lineEnd + 1))

theorem readLine_line {line : List UInt8} (isLine : Line lineEnd line) (rest : List UInt8) :
    readLine (line ++ rest) = (line, rest) := by
  obtain ⟨text, absent, rfl⟩ := isLine
  have pos : (text ++ [lineEnd] ++ rest).idxOf lineEnd + 1 = (text ++ [lineEnd]).length := by
    rw [List.append_assoc, List.idxOf_append_of_notMem absent]
    simp
  rw [readLine, pos, List.take_left, List.drop_left]

structure Message where
  start : List UInt8
  fields : List Field
  body : List UInt8
deriving DecidableEq

namespace Message

def headLines (m : Message) : List (List UInt8) :=
  (m.start ++ crlf) :: (m.fields.map Field.line ++ [crlf])

def encode (m : Message) : List UInt8 := m.headLines.flatten ++ m.body

end Message

def lengthName : List UInt8 := bytes "Content-Length".toList

def bodyLength (fields : List Field) : Nat :=
  (fields.find? (·.name = lengthName)).elim 0 fun f => number f.value

structure Message.WellFormed (m : Message) : Prop where
  start : lineEnd ∉ m.start
  fields : ∀ f ∈ m.fields, f.WellFormed
  length : bodyLength m.fields = m.body.length

theorem line_crlf {text : List UInt8} (oneLine : lineEnd ∉ text) : Line lineEnd (text ++ crlf) :=
  ⟨text ++ [13], by simpa [lineEnd] using oneLine, by simp [crlf, lineEnd]⟩

theorem Field.WellFormed.isLine {f : Field} (formed : f.WellFormed) : Line lineEnd f.line := by
  have line : f.line = (f.name ++ colon :: space :: f.value) ++ crlf := by simp [Field.line]
  rw [line]
  refine line_crlf ?_
  simp only [List.mem_append, List.mem_cons, not_or]
  exact ⟨formed.name.oneLine, by decide, by decide, formed.value.oneLine⟩

def readFields (text : List UInt8) : Option (List Field × List UInt8) :=
  if text = [] then none
  else if strip blank (readLine text).1 = [] then some ([], (readLine text).2)
  else do
    let field ← readField (readLine text).1
    let (fields, rest) ← readFields (readLine text).2
    some (field :: fields, rest)
termination_by text.length
decreasing_by
  have some : 0 < text.length := List.length_pos_iff.mpr ‹_›
  rw [readLine, List.length_drop]
  omega

def decode (text : List UInt8) : Option (Message × List UInt8) := do
  let (fields, rest) ← readFields (readLine text).2
  if bodyLength fields ≤ rest.length then
    some (⟨(readLine text).1.dropLast.dropLast, fields, rest.take (bodyLength fields)⟩,
      rest.drop (bodyLength fields))
  else none

theorem readFields_lines {fields : List Field} (formed : ∀ f ∈ fields, f.WellFormed)
    (rest : List UInt8) :
    readFields ((fields.map Field.line).flatten ++ (crlf ++ rest)) = some (fields, rest) := by
  induction fields with
  | nil =>
    have isLine : Line lineEnd ([] ++ crlf) := line_crlf (by simp)
    have line := readLine_line isLine rest
    rw [List.nil_append] at line
    unfold readFields
    rw [List.map_nil, List.flatten_nil, List.nil_append, if_neg (by simp [crlf]), line]
    rfl
  | cons f fields ih =>
    have first := formed f (by simp)
    have later := ih fun g mem => formed g (by simp [mem])
    have line := readLine_line first.isLine ((fields.map Field.line).flatten ++ (crlf ++ rest))
    obtain ⟨tail, raw, -⟩ := strip_line first
    unfold readFields
    rw [List.map_cons, List.flatten_cons, List.append_assoc,
      if_neg (by simp [first.nonempty, Field.line]), line]
    simp [raw, readField_line first, later]

theorem decode_encode {m : Message} (formed : m.WellFormed) (rest : List UInt8) :
    decode (m.encode ++ rest) = some (m, rest) := by
  have text : m.encode ++ rest = (m.start ++ crlf) ++
      ((m.fields.map Field.line).flatten ++ (crlf ++ (m.body ++ rest))) := by
    simp [Message.encode, Message.headLines]
  have fields := readFields_lines formed.fields (m.body ++ rest)
  have start : (m.start ++ crlf).dropLast.dropLast = m.start := by simp [crlf]
  rw [decode, text, readLine_line (line_crlf formed.start), fields]
  simp [formed.length, start]

end HyperionNg.Library.HttpMessage
