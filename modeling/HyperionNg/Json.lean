import Mathlib.Tactic

/-! JSON values as Qt holds them, and their accessors, which answer a default
where the value is of another kind. -/

namespace HyperionNg

/-- A number is a finite double, an exact rational here; an object lists its
members by key. -/
inductive Json
  | null
  | bool (b : Bool)
  | double (d : ℚ)
  | string (s : String)
  | array (items : List Json)
  | object (members : List (String × Json))

abbrev QJsonObject := List (String × Json)

namespace Json

mutual

def decEq : (a b : Json) → Decidable (a = b)
  | .null, .null => isTrue rfl
  | .bool a, .bool b => decidable_of_iff (a = b) (by simp)
  | .double a, .double b => decidable_of_iff (a = b) (by simp)
  | .string a, .string b => decidable_of_iff (a = b) (by simp)
  | .array a, .array b =>
    match decEqItems a b with
    | isTrue same => isTrue (congrArg _ same)
    | isFalse other => isFalse fun h => other (Json.array.inj h)
  | .object a, .object b =>
    match decEqMembers a b with
    | isTrue same => isTrue (congrArg _ same)
    | isFalse other => isFalse fun h => other (Json.object.inj h)
  | .null, .bool _ | .null, .double _ | .null, .string _ | .null, .array _ | .null, .object _
  | .bool _, .null | .bool _, .double _ | .bool _, .string _ | .bool _, .array _
  | .bool _, .object _ | .double _, .null | .double _, .bool _ | .double _, .string _
  | .double _, .array _ | .double _, .object _ | .string _, .null | .string _, .bool _
  | .string _, .double _ | .string _, .array _ | .string _, .object _ | .array _, .null
  | .array _, .bool _ | .array _, .double _ | .array _, .string _ | .array _, .object _
  | .object _, .null | .object _, .bool _ | .object _, .double _ | .object _, .string _
  | .object _, .array _ => isFalse (by simp)

def decEqItems : (a b : List Json) → Decidable (a = b)
  | [], [] => isTrue rfl
  | [], _ :: _ | _ :: _, [] => isFalse (by simp)
  | x :: a, y :: b =>
    match decEq x y, decEqItems a b with
    | isTrue here, isTrue later => isTrue (by rw [here, later])
    | isFalse other, _ => isFalse fun h => other (List.cons.inj h).1
    | _, isFalse other => isFalse fun h => other (List.cons.inj h).2

def decEqMembers : (a b : List (String × Json)) → Decidable (a = b)
  | [], [] => isTrue rfl
  | [], _ :: _ | _ :: _, [] => isFalse (by simp)
  | (k, x) :: a, (l, y) :: b =>
    if keys : k = l then
      match decEq x y, decEqMembers a b with
      | isTrue here, isTrue later => isTrue (by rw [keys, here, later])
      | isFalse other, _ => isFalse fun h => other (Prod.mk.inj (List.cons.inj h).1).2
      | _, isFalse other => isFalse fun h => other (List.cons.inj h).2
    else isFalse fun h => keys (Prod.mk.inj (List.cons.inj h).1).1

end

instance : DecidableEq Json := decEq

def isNull : Json → Bool
  | .null => true
  | _ => false

def isBool : Json → Bool
  | .bool _ => true
  | _ => false

def isDouble : Json → Bool
  | .double _ => true
  | _ => false

def isString : Json → Bool
  | .string _ => true
  | _ => false

def isArray : Json → Bool
  | .array _ => true
  | _ => false

def isObject : Json → Bool
  | .object _ => true
  | _ => false

def toBool (defaultValue : Bool) : Json → Bool
  | .bool b => b
  | _ => defaultValue

def toDouble (defaultValue : ℚ) : Json → ℚ
  | .double d => d
  | _ => defaultValue

/-- Only a whole number in the range of `int` is one. -/
def toInt (defaultValue : Int) : Json → Int
  | .double d => if d.den = 1 ∧ -2 ^ 31 ≤ d.num ∧ d.num < 2 ^ 31 then d.num else defaultValue
  | _ => defaultValue

def toString (defaultValue : String) : Json → String
  | .string s => s
  | _ => defaultValue

def toArray : Json → List Json
  | .array items => items
  | _ => []

def toObject : Json → QJsonObject
  | .object members => members
  | _ => []

@[simp] theorem toInt_intCast {n : Int} (low : -2 ^ 31 ≤ n) (high : n < 2 ^ 31)
    (defaultValue : Int) : toInt defaultValue (.double n) = n := by
  simp only [toInt, Rat.den_intCast, Rat.num_intCast]
  exact if_pos ⟨trivial, low, high⟩

theorem isObject_iff {value : Json} :
    value.isObject = true ↔ ∃ members, value = .object members := by
  cases value <;> simp [isObject]

end Json

/-- `value(key)`: `none` where the source has an undefined value. -/
def QJsonObject.value (object : QJsonObject) (key : String) : Option Json := object.lookup key

def QJsonObject.contains (object : QJsonObject) (key : String) : Bool := (object.value key).isSome

def QJsonObject.keys (object : QJsonObject) : List String := object.map Prod.fst

@[simp] theorem QJsonObject.value_cons_self (key : String) (held : Json) (rest : QJsonObject) :
    QJsonObject.value ((key, held) :: rest) key = some held := by
  simp [value]

theorem QJsonObject.value_cons_of_ne {key name : String} (other : key ≠ name) (held : Json)
    (rest : QJsonObject) : QJsonObject.value ((name, held) :: rest) key = rest.value key := by
  have differs : (key == name) = false := by simpa using other
  rw [value, List.lookup_cons, differs]
  rfl

theorem QJsonObject.mem_keys_iff {object : QJsonObject} {key : String} :
    key ∈ object.keys ↔ ∃ value, object.value key = some value := by
  induction object with
  | nil => simp [keys, value]
  | cons member rest ih =>
    obtain ⟨name, held⟩ := member
    rw [keys, List.map_cons, List.mem_cons]
    by_cases same : key = name
    · simp [same]
    · rw [value_cons_of_ne same, ← ih]
      simp [same, keys]

end HyperionNg
