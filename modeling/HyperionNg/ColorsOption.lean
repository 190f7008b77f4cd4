import HyperionNg.Library.Captures
import HyperionNg.Library.JsonText

/-! The command line option for a list of colours, `RRGGBBRRGGBB`. What Qt makes
of one text, `QColor(text)`, is a parameter; its formats `#RRGGBB` and
`#RRRRGGGGBBBB` are hypotheses on it. -/

namespace HyperionNg

open Library.Captures Library.JsonText

inductive QColor where
  | invalid
  | rgb (alpha red green blue : Nat)
deriving DecidableEq, Repr

def QColor.isValid : QColor → Bool
  | .invalid => false
  | .rgb _ _ _ _ => true

structure ColorsOption where
  _error : String
  _colors : List QColor
deriving DecidableEq, Repr

namespace ColorsOption

/-- `[0-9A-F]`, letters in either case. -/
def isHexDigit (c : Char) : Bool := (hexValues.lookup c).isSome

/-- `^([0-9A-F]{6})+$` -/
def hexRe : Regex Char :=
  .seq .start (.seq (.plus (.group 1 (.times 6 (.one isHexDigit)))) (.finish fun c => c = '\n'))

def invalidColor (colorNames : List String) : String :=
  "Invalid color. A color is specified by a six lettered RRGGBB hex getColors or one of the " ++
    "following names:\n\t- " ++ "\n\t- ".intercalate colorNames

def validate (qColor : List Char → QColor) (colorNames : List String) (isSet : Bool)
    (value : List Char) (o : ColorsOption) : Bool × ColorsOption :=
  let o := { o with _colors := [] }
  let color := qColor value
  if color.isValid then
    (true, { o with _colors := o._colors ++ [color] })
  else
    match hexRe.capturedTexts value with
    | some texts =>
      (true, { o with _colors := o._colors ++ texts.map fun m => qColor ('#' :: m) })
    | none =>
      if !isSet then
        (true, o)
      else
        (false, { o with _error := invalidColor colorNames })

abbrev HexDigit := { c : Char // isHexDigit c }

namespace HexDigit

def value (digit : HexDigit) : Nat := (hexValues.lookup digit.val).getD 0

theorem value_lt (digit : HexDigit) : digit.value < 16 := by
  obtain ⟨value, found⟩ := Option.isSome_iff_exists.mp digit.property
  rw [HexDigit.value, found]
  exact (hexValues_facts _ (mem_of_hexValue found)).2.1

end HexDigit

/-- `RRGGBB` -/
structure HexBlock where
  r1 : HexDigit
  r0 : HexDigit
  g1 : HexDigit
  g0 : HexDigit
  b1 : HexDigit
  b0 : HexDigit

namespace HexBlock

def text (block : HexBlock) : List Char :=
  [block.r1, block.r0, block.g1, block.g0, block.b1, block.b0].map Subtype.val

def red (block : HexBlock) : Nat := 16 * block.r1.value + block.r0.value

def green (block : HexBlock) : Nat := 16 * block.g1.value + block.g0.value

def blue (block : HexBlock) : Nat := 16 * block.b1.value + block.b0.value

def color (block : HexBlock) : QColor :=
  .rgb 65535 (257 * block.red) (257 * block.green) (257 * block.blue)

private theorem red_lt (block : HexBlock) : block.red < 256 := by
  have high := block.r1.value_lt
  have low := block.r0.value_lt
  unfold red
  omega

private theorem blue_lt (block : HexBlock) : block.blue < 256 := by
  have high := block.b1.value_lt
  have low := block.b0.value_lt
  unfold blue
  omega

private theorem green_lt (block : HexBlock) : block.green < 256 := by
  have high := block.g1.value_lt
  have low := block.g0.value_lt
  unfold green
  omega

private theorem length_text (block : HexBlock) : block.text.length = 6 := rfl

theorem isHexDigit_of_mem {block : HexBlock} {c : Char} (mem : c ∈ block.text) : isHexDigit c := by
  obtain ⟨digit, -, rfl⟩ := List.mem_map.mp mem
  exact digit.property

end HexBlock

/-- A channel of four digits. Some versions of Qt keep the first two only. -/
def channel (wide : Bool) (high low : Nat) : Nat := if wide then 256 * high + low else 257 * high

/-- What is documented of `QColor(text)`. -/
structure ReadsColors (wide : Bool) (qColor : List Char → QColor) : Prop where
  /-- No colour is called by hexadecimal digits. -/
  names : ∀ text, (∀ c ∈ text, isHexDigit c) → qColor text = .invalid
  six : ∀ block : HexBlock, qColor ('#' :: block.text) = block.color
  twelve : ∀ a b : HexBlock, qColor ('#' :: (a.text ++ b.text)) = .rgb 65535
    (channel wide a.red a.green) (channel wide a.blue b.red) (channel wide b.green b.blue)

theorem capturedTexts_blocks {blocks : List HexBlock} (nonempty : blocks ≠ []) :
    hexRe.capturedTexts (blocks.flatMap HexBlock.text) =
      some [blocks.flatMap HexBlock.text, (blocks.getLast nonempty).text] := by
  have lengths : ∀ block ∈ blocks.map HexBlock.text, block.length = 6 := by
    simp [HexBlock.length_text]
  have digits : ∀ block ∈ blocks.map HexBlock.text, ∀ c ∈ block, isHexDigit c := by
    intro block mem c hc
    obtain ⟨hex, -, rfl⟩ := List.mem_map.mp mem
    exact HexBlock.isHexDigit_of_mem hc
  have some : blocks.map HexBlock.text ≠ [] := by simpa using nonempty
  obtain ⟨others, found⟩ := plus_group_times 1 0 (by decide) lengths digits some fun _ => none
  have matched : hexRe.search 0 (blocks.map HexBlock.text).flatten = _ := search_anchored found
  have sizes : (blocks.map HexBlock.text).flatten.length ≤ 0 + 6 * blocks.length := by
    simp [List.length_flatten, Function.comp_def, HexBlock.length_text, Nat.mul_comm]
  rw [List.flatMap_def, Regex.capturedTexts, matched]
  rw [List.length_map, List.take_of_length_le sizes, Option.map_some]
  simp [hexRe, Regex.groups, List.getLast_map]

theorem channel_eq_iff {wide : Bool} {high low byte : Nat} (hlow : low < 256) (hbyte : byte < 256) :
    channel wide high low = 257 * byte ↔ high = byte ∧ (wide → low = byte) := by
  unfold channel
  cases wide
  · simp
  · simp
    omega

theorem twelve_iff (wide : Bool) (a b : HexBlock) :
    QColor.rgb 65535 (channel wide a.red a.green) (channel wide a.blue b.red)
        (channel wide b.green b.blue) = a.color ↔
      a.green = a.blue ∧ a.blue = b.green ∧
        (wide → a.red = a.green ∧ b.red = a.green ∧ b.blue = a.green) := by
  rw [HexBlock.color, QColor.rgb.injEq, channel_eq_iff a.green_lt a.red_lt,
    channel_eq_iff b.red_lt a.green_lt, channel_eq_iff b.blue_lt a.blue_lt]
  cases wide
  · simp
    omega
  · simp
    omega

theorem validate_blocks {wide : Bool} {qColor : List Char → QColor}
    (reads : ReadsColors wide qColor) (colorNames : List String) (isSet : Bool) (o : ColorsOption)
    {blocks : List HexBlock} (nonempty : blocks ≠ []) :
    o.validate qColor colorNames isSet (blocks.flatMap HexBlock.text) =
      (true, { o with _colors := [qColor ('#' :: blocks.flatMap HexBlock.text),
        (blocks.getLast nonempty).color] }) := by
  have digits : ∀ c ∈ blocks.flatMap HexBlock.text, isHexDigit c := by
    intro c mem
    obtain ⟨block, -, hc⟩ := List.mem_flatMap.mp mem
    exact HexBlock.isHexDigit_of_mem hc
  simp [validate, reads.names _ digits, QColor.isValid, capturedTexts_blocks nonempty, reads.six]

/-- The list holds the colours of the blocks exactly when there are two, and the
twelve digits together are the colour of the first. -/
theorem validate_blocks_iff {wide : Bool} {qColor : List Char → QColor}
    (reads : ReadsColors wide qColor) (colorNames : List String) (isSet : Bool) (o : ColorsOption)
    {blocks : List HexBlock} (nonempty : blocks ≠ []) :
    (∃ next, o.validate qColor colorNames isSet (blocks.flatMap HexBlock.text) = (true, next) ∧
      next._colors = blocks.map HexBlock.color) ↔
    ∃ a b, blocks = [a, b] ∧ a.green = a.blue ∧ a.blue = b.green ∧
      (wide → a.red = a.green ∧ b.red = a.green ∧ b.blue = a.green) := by
  rw [validate_blocks reads colorNames isSet o nonempty]
  constructor
  · rintro ⟨next, same, colors⟩
    obtain rfl := (Prod.ext_iff.mp same).2
    have count : blocks.length = 2 := by simpa using (congrArg List.length colors).symm
    obtain ⟨a, b, rfl⟩ := List.length_eq_two.mp count
    have first : qColor ('#' :: (a.text ++ b.text)) = a.color := by
      simpa using congrArg List.head? colors
    rw [reads.twelve] at first
    exact ⟨a, b, rfl, (twelve_iff wide a b).mp first⟩
  · rintro ⟨a, b, rfl, equal⟩
    have first : qColor ('#' :: (a.text ++ b.text)) = a.color :=
      (reads.twelve a b).trans ((twelve_iff wide a b).mpr equal)
    exact ⟨_, rfl, by simp [first]⟩

def byte (high low : Char) : Nat :=
  16 * (hexValues.lookup high).getD 0 + (hexValues.lookup low).getD 0

def hexColor (wide : Bool) : List Char → QColor
  | ['#', r1, r0, g1, g0, b1, b0] =>
    if [r1, r0, g1, g0, b1, b0].all isHexDigit then
      .rgb 65535 (257 * byte r1 r0) (257 * byte g1 g0) (257 * byte b1 b0)
    else .invalid
  | ['#', r3, r2, r1, r0, g3, g2, g1, g0, b3, b2, b1, b0] =>
    if [r3, r2, r1, r0, g3, g2, g1, g0, b3, b2, b1, b0].all isHexDigit then
      .rgb 65535 (channel wide (byte r3 r2) (byte r1 r0)) (channel wide (byte g3 g2) (byte g1 g0))
        (channel wide (byte b3 b2) (byte b1 b0))
    else .invalid
  | _ => .invalid

theorem hexColor_reads (wide : Bool) : ReadsColors wide (hexColor wide) where
  names text digits := by
    unfold hexColor
    split
    · exact absurd (digits '#' List.mem_cons_self) (by decide)
    · exact absurd (digits '#' List.mem_cons_self) (by decide)
    · rfl
  six block := by
    rcases block with ⟨⟨_, h1⟩, ⟨_, h2⟩, ⟨_, h3⟩, ⟨_, h4⟩, ⟨_, h5⟩, ⟨_, h6⟩⟩
    simp [hexColor, HexBlock.text, h1, h2, h3, h4, h5, h6]
    rfl
  twelve a b := by
    rcases a with ⟨⟨_, h1⟩, ⟨_, h2⟩, ⟨_, h3⟩, ⟨_, h4⟩, ⟨_, h5⟩, ⟨_, h6⟩⟩
    rcases b with ⟨⟨_, k1⟩, ⟨_, k2⟩, ⟨_, k3⟩, ⟨_, k4⟩, ⟨_, k5⟩, ⟨_, k6⟩⟩
    simp [hexColor, HexBlock.text, h1, h2, h3, h4, h5, h6, k1, k2, k3, k4, k5, k6]
    exact ⟨rfl, rfl, rfl⟩

def white : HexBlock := ⟨⟨'F', rfl⟩, ⟨'F', rfl⟩, ⟨'F', rfl⟩, ⟨'F', rfl⟩, ⟨'F', rfl⟩, ⟨'f', rfl⟩⟩

def red : HexBlock := ⟨⟨'F', rfl⟩, ⟨'F', rfl⟩, ⟨'0', rfl⟩, ⟨'0', rfl⟩, ⟨'0', rfl⟩, ⟨'0', rfl⟩⟩

theorem validate_blocks_white : ∃ next,
    validate (hexColor true) ["black", "white"] true ([white, white].flatMap HexBlock.text)
      ⟨"", []⟩ = (true, next) ∧ next._colors = [white, white].map HexBlock.color :=
  (validate_blocks_iff (hexColor_reads true) ["black", "white"] true ⟨"", []⟩ (by simp)).mpr
    ⟨white, white, rfl, by decide +kernel⟩

/-- One block is there twice. Of three there are two colours, the first no colour. -/
theorem validate_blocks_fails :
    (¬ ∃ next, validate (hexColor true) ["black", "white"] true ([red].flatMap HexBlock.text)
      ⟨"", []⟩ = (true, next) ∧ next._colors = [red].map HexBlock.color) ∧
    ¬ ∃ next, validate (hexColor true) ["black", "white"] true
      ([red, white, red].flatMap HexBlock.text) ⟨"", []⟩ = (true, next) ∧
        next._colors = [red, white, red].map HexBlock.color := by
  constructor
  · rintro ⟨next, same, colors⟩
    obtain rfl := congrArg Prod.snd same
    exact absurd colors (by decide +kernel)
  · rintro ⟨next, same, colors⟩
    obtain rfl := congrArg Prod.snd same
    exact absurd colors (by decide +kernel)

end ColorsOption

end HyperionNg
