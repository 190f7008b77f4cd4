import HyperionNg.Library.JsonText
import HyperionNg.QJsonFactory

/-! A saved configuration read back. What the reader takes for comments it takes
out of the text, so a string with two solidi in succession does not survive,
the address of a web page among them: the colon in front of them is left in
place, but the match does without a character in front. -/

namespace HyperionNg

open Library.JsonText JsonCommands

namespace Json

mutual

/-- The keys and the strings, in the order they are written in. -/
def strings : Json → List String
  | .string s => [s]
  | .array items => stringsOfItems items
  | .object members => stringsOfMembers members
  | _ => []

def stringsOfItems : List Json → List String
  | [] => []
  | item :: rest => strings item ++ stringsOfItems rest

def stringsOfMembers : List (String × Json) → List String
  | [] => []
  | (key, held) :: rest => key :: strings held ++ stringsOfMembers rest

end

end Json

/-- `QJsonDocument` is faithful for an object: what it writes it reads as the
same object, its text holds the strings of the object as JSON has them, and
each string that it reads stands in the text. -/
structure QJsonDocument.Faithful (qt : QJsonDocument) (o : QJsonObject) : Prop where
  fromJson_toJson : qt.fromJson (qt.toJson o) = .ok (.object o)
  written : Written (Json.object o).strings (qt.toJson o).toList
  hasString : ∀ text doc, qt.fromJson text = .ok doc → ∀ s ∈ doc.strings, HasString text.toList s

namespace QJsonFactory

theorem not_startsComment {c : Char} {rest : List Char} (single : Single '/' (c :: rest)) :
    startsComment c rest = false := by
  have here := single_iff_not_infix.mp single
  have later := single_iff_not_infix.mp (single_cons.mp single).2
  rw [startsComment, Bool.or_eq_false_iff]
  refine ⟨Bool.and_eq_false_imp.mpr fun _ => ?_, ?_⟩
  · exact Bool.eq_false_iff.mpr fun found => later (List.isPrefixOf_iff_prefix.mp found).isInfix
  · exact Bool.eq_false_iff.mpr fun found => here (List.isPrefixOf_iff_prefix.mp found).isInfix

theorem removeFrom_of_single {text : List Char} (single : Single '/' text) :
    removeFrom false text = text := by
  induction text with
  | nil => rfl
  | cons c rest ih =>
    rw [removeFrom, not_startsComment single, ih (single_cons.mp single).2]
    simp

theorem head_removeFrom_true {text : List Char} {c : Char}
    (head : (removeFrom true text).head? = some c) : c = '\n' := by
  induction text with
  | nil => cases head
  | cons x rest ih =>
    rw [removeFrom] at head
    split_ifs at head with inside starts
    · exact ih head
    · exact ih head
    · have newline : x = '\n' := by simpa using inside
      exact (Option.some.inj head).symm.trans newline

theorem head_removeFrom {text : List Char} (head : (removeFrom false text).head? = some '/') :
    text.head? = some '/' := by
  cases text with
  | nil => cases head
  | cons x rest =>
    rw [removeFrom] at head
    split_ifs at head with inside starts
    · exact absurd (head_removeFrom_true head) (by decide)
    · exact absurd (head_removeFrom_true head) (by decide)
    · exact head

theorem single_removeFrom (matched : Bool) (text : List Char) :
    Single '/' (removeFrom matched text) := by
  induction text generalizing matched with
  | nil => exact single_nil
  | cons c rest ih =>
    rw [removeFrom]
    split_ifs with inside starts
    · exact ih true
    · exact ih true
    · refine single_cons.mpr ⟨?_, ih false⟩
      rintro rfl head
      refine starts ?_
      obtain ⟨later, rfl⟩ := List.head?_eq_some_iff.mp (head_removeFrom head)
      simp [startsComment]

theorem removeFrom_cons (matched : Bool) (c : Char) (rest : List Char) :
    removeFrom matched (c :: rest) = removeFrom true rest ∨
      removeFrom matched (c :: rest) = c :: removeFrom false rest := by
  rw [removeFrom]
  split_ifs
  · exact Or.inl rfl
  · exact Or.inl rfl
  · exact Or.inr rfl

theorem removeFrom_true_cons {c : Char} (other : c ≠ '\n') (rest : List Char) :
    removeFrom true (c :: rest) = removeFrom true rest := by
  simp [removeFrom, other]

theorem removeFrom_cons_cons (c : Char) {x : Char} (other : x ≠ '/') (rest : List Char) :
    removeFrom false (c :: x :: rest) = c :: removeFrom false (x :: rest) := by
  rw [removeFrom]
  simp [startsComment, other.symm]

theorem plainSolidus_cut {text : List Char} (plain : PlainSolidus (removeFrom true text)) :
    PlainSolidus ('\\' :: removeFrom true text) := by
  cases cut : removeFrom true text with
  | nil => trivial
  | cons c later =>
    have head : (removeFrom true text).head? = some c := by rw [cut, List.head?_cons]
    obtain rfl := head_removeFrom_true head
    rw [cut] at plain
    exact plainSolidus_escape.mpr ⟨by decide, fun u => absurd u (by decide),
      (plainSolidus_cons_of_ne (by decide)).mp plain⟩

theorem plainSolidus_removeFrom {text : List Char} (escaped : WellEscaped text) (matched : Bool) :
    PlainSolidus (removeFrom matched text) := by
  induction escaped generalizing matched with
  | nil => trivial
  | @plain c rest other later ih =>
    rcases removeFrom_cons matched c rest with cut | kept
    · rw [cut]
      exact ih true
    · rw [kept]
      exact (plainSolidus_cons_of_ne other).mpr (ih false)
  | @short letter rest mem later ih =>
    have solidus : letter ≠ '/' := ne_of_mem_of_not_mem mem (by decide)
    have unicode : letter ≠ 'u' := ne_of_mem_of_not_mem mem (by decide)
    have newline : letter ≠ '\n' := ne_of_mem_of_not_mem mem (by decide)
    cases matched with
    | true =>
      rw [removeFrom_true_cons (by decide), removeFrom_true_cons newline]
      exact ih true
    | false =>
      rw [removeFrom_cons_cons _ solidus]
      rcases removeFrom_cons false letter rest with cut | kept
      · rw [cut]
        exact plainSolidus_cut (ih true)
      · rw [kept]
        exact plainSolidus_escape.mpr ⟨solidus, fun u => absurd u unicode, ih false⟩
  | @control high low rest highMem lowMem later ih =>
    have high_other : ∀ c ∈ ['/', '\n', '\\', '2'], c ∉ ['0', '1'] := by simp
    have low_other : ∀ c ∈ ['/', '\n', '\\'], c ∉ hexDigits := by simp [hexDigits]
    have high_ne : ∀ c ∈ ['/', '\n', '\\', '2'], high ≠ c := fun c mem same =>
      high_other c mem (same ▸ highMem)
    have low_ne : ∀ c ∈ ['/', '\n', '\\'], low ≠ c := fun c mem same =>
      low_other c mem (same ▸ lowMem)
    cases matched with
    | true =>
      rw [removeFrom_true_cons (by decide), removeFrom_true_cons (by decide),
        removeFrom_true_cons (by decide), removeFrom_true_cons (by decide),
        removeFrom_true_cons (high_ne _ (by decide)), removeFrom_true_cons (low_ne _ (by decide))]
      exact ih true
    | false =>
      have tail : PlainSolidus (removeFrom false (low :: rest)) := by
        rcases removeFrom_cons false low rest with cut | kept
        · rw [cut]
          exact ih true
        · rw [kept]
          exact (plainSolidus_cons_of_ne (low_ne _ (by decide))).mpr (ih false)
      have digits : '\\' ∉ ['0', '0', high] := by
        simp [(high_ne _ (by decide) : high ≠ '\\').symm]
      rw [removeFrom_cons_cons _ (by decide), removeFrom_cons_cons _ (by decide),
        removeFrom_cons_cons _ (by decide), removeFrom_cons_cons _ (high_ne _ (by decide)),
        removeFrom_cons_cons _ (low_ne _ (by decide))]
      refine plainSolidus_escape.mpr ⟨by decide, fun _ code => ?_,
        (plainSolidus_append digits).mpr tail⟩
      have third := (codeUnit_cases code).2.2 rfl
      exact high_ne '2' (by decide) (by simpa using third)

private theorem readAll_writeJson (qt : QJsonDocument) {disk : Disk} {path : String}
    (canRead : disk.canRead path = true) (canWrite : disk.canWrite path = true)
    (o : QJsonObject) : (writeJson qt path o disk).readAll path = .ok (qt.toJson o) := by
  simp [writeJson, Disk.readAll, canRead, canWrite]

private theorem cStr_of_written {strings : List String} {text : String}
    (written : Written strings text.toList) : String.ofList (cStr text) = text := by
  have whole : cStr text = text.toList := by
    refine List.takeWhile_eq_self_iff.mpr fun c mem => ?_
    exact decide_eq_true fun null => written.notMem_null (null ▸ mem)
  rw [whole, String.ofList_toList]

theorem readConfig_eq_ok_iff {qt : QJsonDocument} {o : QJsonObject} (faithful : qt.Faithful o)
    {disk : Disk} {path : String} (text : disk.readAll path = .ok (qt.toJson o)) :
    readConfig qt disk path = .ok o ↔
      ∀ s ∈ (Json.object o).strings, ¬['/', '/'] <:+: s.toList := by
  simp only [← single_iff_not_infix]
  rw [readConfig, text]
  simp only [cStr_of_written faithful.written]
  constructor
  · intro same
    cases parsed : qt.fromJson (removeComments (qt.toJson o)) with
    | error error =>
      rw [parsed] at same
      cases same
    | ok doc =>
      rw [parsed] at same
      obtain rfl : doc.toObject = o := Except.ok.inj same
      have read := faithful.hasString _ doc parsed
      have plain := plainSolidus_removeFrom faithful.written.wellEscaped false
      have single := single_removeFrom false (qt.toJson doc.toObject).toList
      rw [removeComments, String.toList_ofList] at read
      cases doc with
      | object members => exact fun s mem => (read s mem).single plain single
      | _ => exact fun s mem => absurd mem List.not_mem_nil
  · intro single
    have text := removeFrom_of_single (faithful.written.single_iff.mpr single)
    have same : removeComments (qt.toJson o) = qt.toJson o := by
      rw [removeComments, text, String.ofList_toList]
    rw [same, faithful.fromJson_toJson]
    rfl

/-- A saved configuration is read back as it was exactly if none of its keys and
strings holds two solidi in succession. -/
theorem readConfig_writeJson_iff {qt : QJsonDocument} {o : QJsonObject} (faithful : qt.Faithful o)
    {disk : Disk} {path : String} (canRead : disk.canRead path = true)
    (canWrite : disk.canWrite path = true) :
    readConfig qt (writeJson qt path o disk) path = .ok o ↔
      ∀ s ∈ (Json.object o).strings, ¬['/', '/'] <:+: s.toList :=
  readConfig_eq_ok_iff faithful (readAll_writeJson qt canRead canWrite o)

def setting (key value : String) : QJsonObject := [(key, .string value)]

def settingChars (key value : String) : List Char :=
  "\x7b\n    ".toList ++ quoted key.toList ++
    (": ".toList ++ quoted value.toList ++ "\n\x7d\n".toList)

def settingText (key value : String) : String := String.ofList (settingChars key value)

theorem written_setting (key value : String) :
    Written (Json.object (setting key value)).strings (settingText key value).toList := by
  have first : "\x7b\n    ".toList ⊆ layoutChars := by decide
  have middle : ": ".toList ⊆ layoutChars := by decide
  have last : "\n\x7d\n".toList ⊆ layoutChars := by decide
  have strings : (Json.object (setting key value)).strings = [key, value] := by
    simp [setting, Json.strings, Json.stringsOfMembers]
  have chars : (settingText key value).toList = settingChars key value := String.toList_ofList
  rw [strings, chars]
  exact .string first (.string middle (.layout last))

/-- Qt as far as the one setting goes. -/
def settingQt (key value : String) : QJsonDocument where
  fromJson input :=
    if input = settingText key value then .ok (.object (setting key value))
    else .error ⟨input.toUTF8.size, "unterminated string"⟩
  toJson object := if object = setting key value then settingText key value else ""
  fromPercentEncoding := id

theorem settingQt_faithful (key value : String) :
    (settingQt key value).Faithful (setting key value) where
  fromJson_toJson := by simp [settingQt]
  written := by simpa [settingQt] using written_setting key value
  hasString input doc parsed := by
    simp only [settingQt] at parsed
    split_ifs at parsed with same
    cases parsed
    rw [same]
    exact (written_setting key value).hasString

def sampleDisk : Disk where
  text _ := none
  canRead _ := true
  canWrite _ := true
  errorString _ := "No such file or directory"

theorem readConfig_writeJson_path :
    readConfig (settingQt "path" "effects/custom") (writeJson (settingQt "path" "effects/custom")
        "config" (setting "path" "effects/custom") sampleDisk) "config" =
        .ok (setting "path" "effects/custom") ↔
      ∀ s ∈ (Json.object (setting "path" "effects/custom")).strings,
        ¬['/', '/'] <:+: s.toList :=
  readConfig_writeJson_iff (settingQt_faithful _ _) rfl rfl

/-- The address of a web page: the match starts at the first solidus. -/
theorem address_is_lost :
    (settingQt "url" "http://bridge").Faithful (setting "url" "http://bridge") ∧
    readConfig (settingQt "url" "http://bridge") (writeJson (settingQt "url" "http://bridge")
        "config" (setting "url" "http://bridge") sampleDisk) "config" ≠
        .ok (setting "url" "http://bridge") := by
  refine ⟨settingQt_faithful _ _, fun same => ?_⟩
  have fails : (readConfig (settingQt "url" "http://bridge")
      (writeJson (settingQt "url" "http://bridge") "config" (setting "url" "http://bridge")
        sampleDisk) "config").toOption = none := by
    decide +kernel
  rw [same] at fails
  cases fails

theorem readConfig_cmd_cfg_set_iff {qt : QJsonDocument} {data : String} {doc : Json}
    (posted : qt.fromJson (qt.fromPercentEncoding data) = .ok doc)
    (faithful : qt.Faithful doc.toObject) {disk : Disk} {path : String}
    (canRead : disk.canRead path = true) (canWrite : disk.canWrite path = true)
    (args : List String) :
    readConfig qt (cmd_cfg_set qt path ("cfg_set" :: args) (some data) disk).disk path =
        .ok doc.toObject ↔
      ∀ s ∈ (Json.object doc.toObject).strings, ¬['/', '/'] <:+: s.toList := by
  have saved : (cmd_cfg_set qt path ("cfg_set" :: args) (some data) disk).disk =
      writeJson qt path doc.toObject disk := by
    simp only [cmd_cfg_set, List.head?_cons, if_true, posted]
  rw [saved]
  exact readConfig_eq_ok_iff faithful (readAll_writeJson qt canRead canWrite _)

end QJsonFactory

end HyperionNg
