import HyperionNg.JsonReplies

/-! The fill of the `color` command. The colours given are copied over all LEDs,
block by block, within the vector they are already in: `memcpy` is only defined
there where both ranges are inside it and apart. The sizes are exact: lists of
LEDs and of colours come from JSON documents, which stay far below 2^31 entries. -/

namespace HyperionNg.JsonCommands

/-- `copyFront`, where the call of `memcpy` is defined. -/
def copyFrontInside (data : List ColorRgb) (i n : Nat) : Option (List ColorRgb) :=
  if i + n ≤ data.length ∧ n ≤ i then some (copyFront data i n) else none

section Copies

variable (copy : List ColorRgb → Nat → Nat → Option (List ColorRgb))

/-- `copyBlocks`, with another copy in the place of `copyFront`. -/
def copyBlocksWith (ledCount size : Nat) :
    Nat → Nat × List ColorRgb → Option (Nat × List ColorRgb)
  | 0, _ => none
  | rounds + 1, (i, data) =>
    if i + size < ledCount then
      (copy data i size).bind fun data => copyBlocksWith ledCount size rounds (i + size, data)
    else some (i, data)

def commandColor (jsonColor : List Json) (i : Nat) : ColorRgb :=
  let component := fun i => UInt8.ofInt (jsonColor[i]?.elim 0 (Json.toInt 0))
  ⟨component (3 * i), component (3 * i + 1), component (3 * i + 2)⟩

/-- `colorData`, with another copy in the place of `copyFront`. -/
def colorDataWith (ledCount : Nat) (jsonColor : List Json) : Option (List ColorRgb) :=
  let size := min (jsonColor.length / 3) ledCount
  let first := (List.range size).map (commandColor jsonColor)
  (copyBlocksWith copy ledCount size (ledCount + 1)
    (size, first ++ List.replicate (ledCount - size) ColorRgb.black)).bind fun (i, data) =>
      if i < ledCount then copy data i (ledCount - i) else some data

end Copies

theorem copyBlocksWith_some (ledCount size rounds : Nat) (block : Nat × List ColorRgb) :
    copyBlocksWith (fun data i n => some (copyFront data i n)) ledCount size rounds block =
      copyBlocks ledCount size rounds block := by
  induction rounds generalizing block with
  | zero => rfl
  | succ rounds ih =>
    rw [copyBlocksWith, copyBlocks, Option.bind_some, ih]

theorem colorDataWith_some (ledCount : Nat) (jsonColor : List Json) :
    colorDataWith (fun data i n => some (copyFront data i n)) ledCount jsonColor =
      colorData ledCount jsonColor := by
  simp only [colorDataWith, copyBlocksWith_some]
  rw [colorData, Option.map_eq_bind]
  congr 1
  refine funext fun block => ?_
  obtain ⟨i, data⟩ := block
  simp only [Function.comp_apply]
  split_ifs <;> rfl

/-- The vector up to the position `i`, filled with the first `size` colours over
and over. -/
structure Filled (color : Nat → ColorRgb) (size ledCount i : Nat) (data : List ColorRgb) :
    Prop where
  length : data.length = ledCount
  repeated : ∀ j < i, data[j]? = some (color (j % size))

section Fill

variable {color : Nat → ColorRgb} {size ledCount i n : Nat} {data : List ColorRgb}

private theorem copyFront_length (fits : i + n ≤ data.length) :
    (copyFront data i n).length = data.length := by
  simp only [copyFront, List.length_append, List.length_take, List.length_drop]
  omega

private theorem copyFront_before (fits : i + n ≤ data.length) {j : Nat} (before : j < i) :
    (copyFront data i n)[j]? = data[j]? := by
  rw [copyFront, List.append_assoc, List.getElem?_append_left, List.getElem?_take_of_lt before]
  rw [List.length_take]
  omega

theorem copyFront_copied (fits : i + n ≤ data.length) {j : Nat} (copied : j < n) :
    (copyFront data i n)[i + j]? = data[j]? := by
  have front : (data.take i).length = i := by rw [List.length_take]; omega
  rw [copyFront, List.append_assoc, List.getElem?_append_right (by omega), front,
    Nat.add_sub_cancel_left, List.getElem?_append_left, List.getElem?_take_of_lt copied]
  rw [List.length_take]
  omega

/-- Behind full blocks a copy of at most one block is inside, apart from its
source, and continues the pattern. -/
theorem Filled.copy (held : Filled color size ledCount i data) (blocks : size ∣ i)
    (first : size ≤ i) (short : n ≤ size) (fits : i + n ≤ ledCount) :
    copyFrontInside data i n = some (copyFront data i n) ∧
      Filled color size ledCount (i + n) (copyFront data i n) := by
  have inside : i + n ≤ data.length := by rw [held.length]; exact fits
  refine ⟨if_pos ⟨inside, by omega⟩, (copyFront_length inside).trans held.length, ?_⟩
  intro j below
  by_cases before : j < i
  · rw [copyFront_before inside before, held.repeated j before]
  · obtain ⟨k, rfl⟩ : ∃ k, j = i + k := ⟨j - i, by omega⟩
    rw [copyFront_copied inside (by omega), held.repeated k (by omega)]
    -- whole blocks in front of a position do not move it in its block
    obtain ⟨block, rfl⟩ := blocks
    rw [Nat.mul_add_mod]

theorem Filled.copyBlocks {rounds : Nat} (held : Filled color size ledCount i data)
    (blocks : size ∣ i) (first : size ≤ i) (below : i ≤ ledCount)
    (positive : 0 < size ∨ ledCount = 0) (enough : ledCount ≤ i + size + rounds) :
    ∃ last filled, copyBlocksWith copyFrontInside ledCount size (rounds + 1) (i, data) =
        some (last, filled) ∧
      JsonCommands.copyBlocks ledCount size (rounds + 1) (i, data) = some (last, filled) ∧
      Filled color size ledCount last filled ∧ size ∣ last ∧ size ≤ last ∧ last ≤ ledCount ∧
      ledCount ≤ last + size := by
  induction rounds generalizing i data with
  | zero =>
    have stops : ¬ i + size < ledCount := by omega
    refine ⟨i, data, ?_, ?_, held, blocks, first, below, by omega⟩
    · rw [copyBlocksWith, if_neg stops]
    · rw [JsonCommands.copyBlocks, if_neg stops]
  | succ rounds ih =>
    rw [copyBlocksWith, JsonCommands.copyBlocks]
    by_cases more : i + size < ledCount
    · obtain ⟨copies, next⟩ := held.copy blocks first le_rfl more.le
      rw [if_pos more, if_pos more, copies, Option.bind_some]
      exact ih next (blocks.add dvd_rfl) (by omega) (by omega) (by omega)
    · rw [if_neg more, if_neg more]
      exact ⟨i, data, rfl, rfl, held, blocks, first, below, by omega⟩

end Fill

theorem filled_first (color : Nat → ColorRgb) {size ledCount : Nat} (below : size ≤ ledCount) :
    Filled color size ledCount size
      ((List.range size).map color ++ List.replicate (ledCount - size) ColorRgb.black) := by
  constructor
  · rw [List.length_append, List.length_map, List.length_range, List.length_replicate]
    omega
  · intro j inside
    rw [List.getElem?_append_left (by simpa using inside), List.getElem?_map,
      List.getElem?_range inside, Option.map_some, Nat.mod_eq_of_lt inside]

theorem colorData_filled (ledCount : Nat) {jsonColor : List Json} (three : 3 ≤ jsonColor.length) :
    ∃ colors, colorDataWith copyFrontInside ledCount jsonColor = some colors ∧
      colorData ledCount jsonColor = some colors ∧
      Filled (commandColor jsonColor) (min (jsonColor.length / 3) ledCount) ledCount ledCount
        colors := by
  rw [← colorDataWith_some, colorDataWith, colorDataWith, copyBlocksWith_some]
  generalize hsize : min (jsonColor.length / 3) ledCount = size
  obtain ⟨last, data, inside, same, held, blocks, first, below, missing⟩ :=
    (filled_first (commandColor jsonColor) (show size ≤ ledCount by omega)).copyBlocks dvd_rfl
      le_rfl (by omega) (by omega) (show ledCount ≤ size + size + ledCount by omega)
  simp only [inside, same, Option.bind_some]
  by_cases rest : last < ledCount
  · obtain ⟨copies, all⟩ := held.copy blocks first (show ledCount - last ≤ size by omega)
      (by omega)
    rw [Nat.add_sub_cancel' below] at all
    rw [if_pos rest, if_pos rest]
    exact ⟨_, copies, rfl, all⟩
  · obtain rfl : last = ledCount := by omega
    rw [if_neg rest, if_neg rest]
    exact ⟨data, rfl, rfl, held⟩

/-- The handling of a `color` command whose message the schema lets through:
the fill ends, copies within its vector only, and repeats the colours over all
LEDs. -/
theorem handleColorCommand_fills {host : Host} (d : Daemon) {message : QJsonObject}
    (command : String) (tan : Int) (passes : checkJson host message ":schema-color" = .ok ()) :
    ∃ colors, colorDataWith copyFrontInside d.getLedCount (arrayMember message "color") =
        some colors ∧
      colorData d.getLedCount (arrayMember message "color") = some colors ∧
      (handleColorCommand d message command tan = do
        forwardJsonMessage d message
        let _ ← request (.setColors (intMember message "priority" 0) colors
          (intMember message "duration" (-1)) .color)
        sendSuccessReply command tan) ∧
      colors.length = d.getLedCount ∧
      ∀ j < d.getLedCount, colors[j]? = some (commandColor (arrayMember message "color")
        (j % ((arrayMember message "color").length / 3))) := by
  obtain ⟨colors, inside, fills, all⟩ :=
    colorData_filled d.getLedCount (three_le_of_checkJson passes)
  refine ⟨colors, inside, fills, ?_, all.length, fun j below => ?_⟩
  · rw [handleColorCommand, fills]
  · rw [all.repeated j below]
    rcases Nat.le_total ((arrayMember message "color").length / 3) d.getLedCount with few | many
    · rw [Nat.min_eq_left few]
    · rw [Nat.min_eq_right many, Nat.mod_eq_of_lt below, Nat.mod_eq_of_lt (by omega)]

def twoColorsMessage : QJsonObject :=
  [("color", .array [.double 1, .double 2, .double 3, .double 4, .double 5, .double 6]),
    ("command", .string "color"), ("priority", .double 50)]

theorem handleColorCommand_fills_five : ∃ colors,
    colorData 5 (arrayMember twoColorsMessage "color") = some colors ∧ colors.length = 5 ∧
      colors[4]? = some ⟨1, 2, 3⟩ := by
  have passes : checkJson (.ofMessage "" .null) twoColorsMessage ":schema-color" = .ok () := by rfl
  obtain ⟨colors, _, fills, _, length, all⟩ := handleColorCommand_fills
    { getLedCount := 5, files := noFiles } "color" 0 passes
  refine ⟨colors, fills, length, (all 4 (show 4 < 5 by decide)).trans ?_⟩
  decide +kernel

end HyperionNg.JsonCommands
