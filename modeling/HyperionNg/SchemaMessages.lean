import HyperionNg.QJsonSchemaChecker

/-! The messages of the schema checker. A violation is found at a node of the
value, at the end of a way of members and items; the checker keeps this way on
its path stack, says so with every message, and raises its flag with each. -/

namespace HyperionNg

inductive PathStep
  | member (property : String)
  | item (i : Nat)
deriving DecidableEq

def PathStep.text : PathStep → String
  | .member property => "." ++ property
  | .item i => "[" ++ toString i ++ "]"

namespace QJsonSchemaChecker

def faultIf (condition : Bool) (message : String) : List String :=
  if condition then [message] else []

def faults (r : Rendering) (value : Json) (attributeName : String) (attributeValue : Json) :
    List String :=
  if attributeName = "type" then
    faultIf (wrongType (attributeValue.toString "") value)
      (attributeValue.toString "" ++ " expected")
  else if attributeName = "properties" then
    faultIf (!value.isObject) "properties attribute is only valid for objects"
  else if attributeName = "additionalProperties" then
    faultIf (!value.isObject) "additional properties attribute is only valid for objects"
  else if attributeName = "minimum" then
    if value.isDouble then
      faultIf (value.toDouble 0 < attributeValue.toDouble 0)
        ("value is too small (minimum=" ++ r.double (attributeValue.toDouble 0) ++ ")")
    else ["minimum check only for numeric fields"]
  else if attributeName = "maximum" then
    if value.isDouble then
      faultIf (attributeValue.toDouble 0 < value.toDouble 0)
        ("value is too large (maximum=" ++ r.double (attributeValue.toDouble 0) ++ ")")
    else ["maximum check only for numeric fields"]
  else if attributeName = "items" then faultIf (!value.isArray) "items only valid for arrays"
  else if attributeName = "minItems" then
    if value.isArray then
      faultIf ((value.toArray.length : Int) < attributeValue.toInt 0)
        ("array is too small (minimum=" ++ toString (attributeValue.toInt 0) ++ ")")
    else ["minItems only valid for arrays"]
  else if attributeName = "maxItems" then
    if value.isArray then
      faultIf (attributeValue.toInt 0 < (value.toArray.length : Int))
        ("array is too large (maximum=" ++ toString (attributeValue.toInt 0) ++ ")")
    else ["maxItems only valid for arrays"]
  else if attributeName = "uniqueItems" then
    if value.isArray then
      if attributeValue.toBool false then
        List.replicate (equalPairs value.toArray) "array must have unique values"
      else []
    else ["uniqueItems only valid for arrays"]
  else if attributeName = "enum" then
    faultIf (!attributeValue.toArray.contains value) ("Unknown enum value (allowed values are: " ++
      attributeValue.toString "" ++ r.compact attributeValue.toArray ++ ")")
  else if ignoredAttributes.contains attributeName then []
  else ["No check function defined for attribute " ++ attributeName]

/-- The members that the `properties` of a schema speak of. -/
def declaredProperties (schema : QJsonObject) : List String :=
  (schema.value "properties").elim [] fun props => props.toObject.keys

def demandsMember (propertyValue : Json) : Bool :=
  (propertyValue.toObject.value "required").elim false (Json.toBool false)

mutual

/-- Validating the value against the schema, the text is said of the node at the
end of the path. -/
inductive Violates (r : Rendering) (ignoreRequired : Bool) :
    Json → Json → List PathStep → String → Prop
  | attribute {value attributeValue : Json} {schema : QJsonObject} {attributeName text : String}
      {path : List PathStep} (mem : (attributeName, attributeValue) ∈ schema)
      (violates : ViolatesAttribute r ignoreRequired value schema attributeName attributeValue
        path text) : Violates r ignoreRequired value (.object schema) path text

inductive ViolatesAttribute (r : Rendering) (ignoreRequired : Bool) :
    Json → QJsonObject → String → Json → List PathStep → String → Prop
  | here {value attributeValue : Json} {schema : QJsonObject} {attributeName text : String}
      (fault : text ∈ faults r value attributeName attributeValue) :
      ViolatesAttribute r ignoreRequired value schema attributeName attributeValue [] text
  | property {object schema properties : QJsonObject} {property text : String}
      {propertyValue member : Json} {path : List PathStep}
      (mem : (property, propertyValue) ∈ properties) (found : object.value property = some member)
      (violates : Violates r ignoreRequired member propertyValue path text) :
      ViolatesAttribute r ignoreRequired (.object object) schema "properties" (.object properties)
        (.member property :: path) text
  | missing {object schema properties : QJsonObject} {property : String} {propertyValue : Json}
      (mem : (property, propertyValue) ∈ properties) (absent : object.value property = none)
      (required : demandsMember propertyValue = true) (asked : ignoreRequired = false) :
      ViolatesAttribute r ignoreRequired (.object object) schema "properties" (.object properties)
        [.member property] "missing member"
  | undeclared {object schema : QJsonObject} {property : String}
      (mem : property ∈ object.keys) (other : property ∉ declaredProperties schema) :
      ViolatesAttribute r ignoreRequired (.object object) schema "additionalProperties"
        (.bool false) [.member property] "no schema definition"
  | additional {object schema : QJsonObject} {property text : String} {attributeValue : Json}
      {path : List PathStep} (mem : property ∈ object.keys)
      (other : property ∉ declaredProperties schema) (checked : attributeValue.isBool = false)
      (violates : Violates r ignoreRequired
        (.object ((object.value property).elim [] Json.toObject)) attributeValue path text) :
      ViolatesAttribute r ignoreRequired (.object object) schema "additionalProperties"
        attributeValue (.member property :: path) text
  | item {items : List Json} {schema : QJsonObject} {item attributeValue : Json} {i : Nat}
      {text : String} {path : List PathStep} (mem : items[i]? = some item)
      (violates : Violates r ignoreRequired item attributeValue path text) :
      ViolatesAttribute r ignoreRequired (.array items) schema "items" attributeValue
        (.item i :: path) text

end

def emit (c : QJsonSchemaChecker) (found : List (List PathStep × String)) : QJsonSchemaChecker :=
  { c with
    error := c.error || !found.isEmpty
    messages := c.messages ++ found.map fun violation =>
      String.join (c.currentPath ++ violation.1.map PathStep.text) ++ ": " ++ violation.2 }

private theorem emit_nil (c : QJsonSchemaChecker) : c.emit [] = c := by simp [emit]

private theorem emit_emit (c : QJsonSchemaChecker) (first second : List (List PathStep × String)) :
    (c.emit first).emit second = c.emit (first ++ second) := by
  cases first <;> cases second <;> simp [emit]

private theorem fail_eq_emit (c : QJsonSchemaChecker) (message : String) :
    c.fail message = c.emit [([], message)] := by
  simp [fail, setMessage, emit]

private theorem emit_within (c : QJsonSchemaChecker) (s : PathStep)
    (found : List (List PathStep × String)) :
    ((c.push s.text).emit found).pop = c.emit (found.map fun v => (s :: v.1, v.2)) := by
  simp [push, pop, emit, Function.comp_def]

def Emits (V : List PathStep → String → Prop)
    (step : QJsonSchemaChecker → QJsonSchemaChecker) : Prop :=
  ∃ found : List (List PathStep × String),
    (∀ path text, (path, text) ∈ found ↔ V path text) ∧ ∀ c, step c = c.emit found

section Emits

variable {V W : List PathStep → String → Prop} {step next : QJsonSchemaChecker → QJsonSchemaChecker}

theorem Emits.congr (emits : Emits V step) (same : ∀ path text, V path text ↔ W path text) :
    Emits W step := by
  obtain ⟨found, exact, eq⟩ := emits
  exact ⟨found, fun path text => (exact path text).trans (same path text), eq⟩

theorem Emits.congr_step (emits : Emits V step) (same : ∀ c, next c = step c) : Emits V next := by
  obtain ⟨found, exact, eq⟩ := emits
  exact ⟨found, exact, fun c => (same c).trans (eq c)⟩

theorem emits_skip : Emits (fun _ _ => False) fun c => c :=
  ⟨[], by simp, fun c => c.emit_nil.symm⟩

theorem Emits.andThen (first : Emits V step) (second : Emits W next) :
    Emits (fun path text => V path text ∨ W path text) fun c => next (step c) := by
  obtain ⟨found, exact, eq⟩ := first
  obtain ⟨later, exactLater, eqLater⟩ := second
  refine ⟨found ++ later, fun path text => ?_, fun c => ?_⟩
  · rw [List.mem_append, exact, exactLater]
  · simp only [eq, eqLater, emit_emit]

theorem emits_foldl {α : Type} {items : List α} {V : α → List PathStep → String → Prop}
    {step : QJsonSchemaChecker → α → QJsonSchemaChecker}
    (emits : ∀ item ∈ items, Emits (V item) fun c => step c item) :
    Emits (fun path text => ∃ item ∈ items, V item path text) fun c => items.foldl step c := by
  induction items with
  | nil => exact emits_skip.congr (by simp)
  | cons item rest ih =>
    have later := ih fun other mem => emits other (List.mem_cons_of_mem _ mem)
    exact ((emits item List.mem_cons_self).andThen later).congr (by simp)

theorem Emits.within (emits : Emits V step) (s : PathStep) :
    Emits (fun path text => ∃ rest, path = s :: rest ∧ V rest text)
      fun c => (step (c.push s.text)).pop := by
  obtain ⟨found, exact, eq⟩ := emits
  refine ⟨found.map fun v => (s :: v.1, v.2), fun path text => ?_, fun c => ?_⟩
  · simp only [List.mem_map, Prod.mk.injEq, Prod.exists]
    constructor
    · rintro ⟨rest, text', mem, rfl, rfl⟩
      exact ⟨rest, rfl, (exact rest text').mp mem⟩
    · rintro ⟨rest, rfl, holds⟩
      exact ⟨rest, text, (exact rest text).mpr holds, rfl, rfl⟩
  · simp only [eq, emit_within]

theorem emits_fails (texts : List String) :
    Emits (fun path text => path = [] ∧ text ∈ texts) fun c => texts.foldl fail c := by
  have each : ∀ message ∈ texts, Emits (fun path text => path = [] ∧ text = message)
      fun c => c.fail message := fun message _ =>
    ⟨[([], message)], by simp, fun c => c.fail_eq_emit message⟩
  exact (emits_foldl each).congr (by simp [and_comm])

end Emits

section attributes

variable {r : Rendering} {ignoreRequired : Bool} {value attributeValue : Json}
  {schema : QJsonObject} {attributeName : String}
  {validate : Json → QJsonSchemaChecker → QJsonSchemaChecker}
  {checkProperties : QJsonObject → QJsonSchemaChecker → QJsonSchemaChecker}

theorem failIf_eq (condition : Bool) (message : String) (c : QJsonSchemaChecker) :
    c.failIf condition message = (faultIf condition message).foldl fail c := by
  cases condition <;> rfl

theorem ite_fails {p : Prop} [Decidable p] {texts others : List String}
    {c here there : QJsonSchemaChecker} (reports : p → here = texts.foldl fail c)
    (otherwise : ¬ p → there = others.foldl fail c) :
    (if p then here else there) = (if p then texts else others).foldl fail c := by
  by_cases holds : p
  · rw [if_pos holds, if_pos holds, reports holds]
  · rw [if_neg holds, if_neg holds, otherwise holds]

theorem checkAttribute_here
    (objects : attributeName = "properties" ∨ attributeName = "additionalProperties" →
      value.isObject = false) (arrays : attributeName = "items" → value.isArray = false)
    (c : QJsonSchemaChecker) :
    c.checkAttribute r value schema attributeName attributeValue validate checkProperties =
      (faults r value attributeName attributeValue).foldl fail c := by
  refine ite_fails (fun _ => failIf_eq _ _ c) fun _ => ?_
  refine ite_fails (fun properties => ?_) fun _ => ?_
  · rw [objects (Or.inl properties)]
    rfl
  refine ite_fails (fun additional => ?_) fun _ => ?_
  · rw [objects (Or.inr additional)]
    rfl
  refine ite_fails (fun _ => ite_fails (fun _ => failIf_eq _ _ c) fun _ => rfl) fun _ => ?_
  refine ite_fails (fun _ => ite_fails (fun _ => failIf_eq _ _ c) fun _ => rfl) fun _ => ?_
  refine ite_fails (fun items => ?_) fun _ => ?_
  · rw [arrays items]
    rfl
  refine ite_fails (fun _ => ite_fails (fun _ => failIf_eq _ _ c) fun _ => rfl) fun _ => ?_
  refine ite_fails (fun _ => ite_fails (fun _ => failIf_eq _ _ c) fun _ => rfl) fun _ => ?_
  refine ite_fails (fun _ => ite_fails (fun _ => ite_fails (fun _ => rfl) fun _ => rfl)
    fun _ => rfl) fun _ => ?_
  refine ite_fails (fun _ => failIf_eq _ _ c) fun _ => ?_
  exact ite_fails (fun _ => rfl) fun _ => rfl

theorem violates_here_iff
    (objects : attributeName = "properties" ∨ attributeName = "additionalProperties" →
      value.isObject = false) (arrays : attributeName = "items" → value.isArray = false)
    {path : List PathStep} {text : String} :
    ViolatesAttribute r ignoreRequired value schema attributeName attributeValue path text ↔
      path = [] ∧ text ∈ faults r value attributeName attributeValue := by
  constructor
  · intro violates
    cases violates with
    | here fault => exact ⟨rfl, fault⟩
    | property => exact nomatch objects (Or.inl rfl)
    | missing => exact nomatch objects (Or.inl rfl)
    | undeclared => exact nomatch objects (Or.inr rfl)
    | additional => exact nomatch objects (Or.inr rfl)
    | item => exact nomatch arrays rfl
  · rintro ⟨rfl, fault⟩
    exact .here fault

theorem emits_items {items : List Json}
    (validates : ∀ item, Emits (Violates r ignoreRequired item attributeValue) (validate item)) :
    Emits (ViolatesAttribute r ignoreRequired (.array items) schema "items" attributeValue)
      fun c => c.checkItems items validate := by
  refine (emits_foldl fun entry _ => (validates entry.1).within (.item entry.2)).congr ?_
  intro path text
  constructor
  · rintro ⟨⟨item, i⟩, mem, rest, rfl, violates⟩
    exact .item (List.mem_zipIdx_iff_getElem?.mp mem) violates
  · generalize attributeName' : "items" = name
    intro violates
    cases violates with
    | item mem violates => exact ⟨(_, _), List.mem_zipIdx_iff_getElem?.mpr mem, _, rfl, violates⟩
    | here fault =>
      rw [← attributeName'] at fault
      exact nomatch fault

theorem emits_additional {object : QJsonObject}
    (validates : ∀ member, Emits (Violates r ignoreRequired member attributeValue)
      (validate member)) :
    Emits (ViolatesAttribute r ignoreRequired (.object object) schema "additionalProperties"
      attributeValue) fun c => c.checkAdditionalProperties object attributeValue validate
        (declaredProperties schema) := by
  have listed : ∀ {property}, property ∈ object.keys.filter
      (fun property => !(declaredProperties schema).contains property) ↔
        property ∈ object.keys ∧ property ∉ declaredProperties schema := by
    intro property
    rw [List.mem_filter]
    simp
  cases plain : attributeValue.isBool with
  | true =>
    obtain ⟨allowed, rfl⟩ : ∃ allowed, attributeValue = .bool allowed := by
      cases attributeValue <;> first | exact ⟨_, rfl⟩ | exact nomatch plain
    have each : ∀ property : String,
        Emits (fun path text => ∃ rest, path = .member property :: rest ∧ rest = [] ∧
          text ∈ faultIf (!allowed) "no schema definition") fun c =>
          ((c.push (PathStep.member property).text).failIf (!allowed) "no schema definition").pop :=
      fun property => Emits.within ((emits_fails _).congr_step fun c => failIf_eq _ _ c) _
    refine (emits_foldl fun property _ => each property).congr ?_
    intro path text
    constructor
    · rintro ⟨property, mem, rest, rfl, rfl, fault⟩
      obtain ⟨held, other⟩ := listed.mp mem
      cases allowed with
      | true => exact nomatch fault
      | false =>
        obtain rfl := List.mem_singleton.mp fault
        exact .undeclared held other
    · generalize named : "additionalProperties" = name
      intro violates
      cases violates with
      | undeclared mem other =>
        exact ⟨_, listed.mpr ⟨mem, other⟩, [], rfl, rfl, List.mem_singleton.mpr rfl⟩
      | additional _ _ checked => exact nomatch checked
      | here fault =>
        rw [← named] at fault
        exact nomatch fault
  | false =>
    have each : ∀ property : String,
        Emits (fun path text => ∃ rest, path = .member property :: rest ∧
          Violates r ignoreRequired (.object ((object.value property).elim [] Json.toObject))
            attributeValue rest text) fun c =>
          (validate (.object ((object.value property).elim [] Json.toObject))
            (c.push (PathStep.member property).text)).pop :=
      fun property => (validates _).within _
    have step : (fun c => c.checkAdditionalProperties object attributeValue validate
        (declaredProperties schema)) = fun c => (object.keys.filter fun property =>
          !(declaredProperties schema).contains property).foldl (fun c property =>
            (validate (.object ((object.value property).elim [] Json.toObject))
              (c.push (PathStep.member property).text)).pop) c := by
      funext c
      simp only [checkAdditionalProperties, plain, Bool.false_eq_true, if_false]
      rfl
    rw [step]
    refine (emits_foldl fun property _ => each property).congr ?_
    intro path text
    constructor
    · rintro ⟨property, mem, rest, rfl, violates⟩
      obtain ⟨held, other⟩ := listed.mp mem
      exact .additional held other plain violates
    · generalize named : "additionalProperties" = name
      intro violates
      cases violates with
      | additional mem other _ violates => exact ⟨_, listed.mpr ⟨mem, other⟩, _, rfl, violates⟩
      | undeclared => exact nomatch plain
      | property => exact nomatch named
      | missing => exact nomatch named
      | here fault =>
        rw [← named] at fault
        exact nomatch fault

/-- What the `properties` of a schema find for one of them. -/
def PropertyViolates (r : Rendering) (ignoreRequired : Bool) (object : QJsonObject)
    (property : String) (propertyValue : Json) (rest : List PathStep) (text : String) : Prop :=
  match object.value property with
  | some member => Violates r ignoreRequired member propertyValue rest text
  | none => rest = [] ∧ demandsMember propertyValue = true ∧ ignoreRequired = false ∧
    text = "missing member"

theorem violates_properties_iff {object : QJsonObject} {path : List PathStep} {text : String} :
    ViolatesAttribute r ignoreRequired (.object object) schema "properties" attributeValue
        path text ↔
      ∃ properties, attributeValue = .object properties ∧ ∃ p ∈ properties, ∃ rest,
        path = .member p.1 :: rest ∧
          PropertyViolates r ignoreRequired object p.1 p.2 rest text := by
  constructor
  · generalize named : "properties" = name
    intro violates
    cases violates with
    | property mem found violates =>
      refine ⟨_, rfl, _, mem, _, rfl, ?_⟩
      rwa [PropertyViolates, found]
    | missing mem absent required asked =>
      refine ⟨_, rfl, _, mem, _, rfl, ?_⟩
      rw [PropertyViolates, absent]
      exact ⟨rfl, required, asked, rfl⟩
    | undeclared => exact nomatch named
    | additional => exact nomatch named
    | here fault =>
      rw [← named] at fault
      exact nomatch fault
  · rintro ⟨properties, rfl, ⟨property, propertyValue⟩, mem, rest, rfl, violates⟩
    unfold PropertyViolates at violates
    cases held : object.value property with
    | some member =>
      rw [held] at violates
      exact .property mem held violates
    | none =>
      rw [held] at violates
      obtain ⟨rfl, required, asked, rfl⟩ := violates
      exact .missing mem held required asked

theorem emits_checkAttribute
    (validates : ∀ value, Emits (Violates r ignoreRequired value attributeValue) (validate value))
    (checks : ∀ object, Emits (fun path text => ∃ properties, attributeValue = .object properties ∧
        ∃ p ∈ properties, ∃ rest, path = .member p.1 :: rest ∧
          PropertyViolates r ignoreRequired object p.1 p.2 rest text) (checkProperties object)) :
    Emits (ViolatesAttribute r ignoreRequired value schema attributeName attributeValue)
      fun c => c.checkAttribute r value schema attributeName attributeValue validate
        checkProperties := by
  by_cases properties : attributeName = "properties" ∧ value.isObject = true
  · obtain ⟨rfl, isObject⟩ := properties
    cases value with
    | object object => exact (checks object).congr fun _ _ => violates_properties_iff.symm
    | _ => exact nomatch isObject
  by_cases additional : attributeName = "additionalProperties" ∧ value.isObject = true
  · obtain ⟨rfl, isObject⟩ := additional
    cases value with
    | object object => exact emits_additional validates
    | _ => exact nomatch isObject
  by_cases listed : attributeName = "items" ∧ value.isArray = true
  · obtain ⟨rfl, isArray⟩ := listed
    cases value with
    | array items => exact emits_items validates
    | _ => exact nomatch isArray
  have objects : attributeName = "properties" ∨ attributeName = "additionalProperties" →
      value.isObject = false := by
    rintro (named | named)
    · exact Bool.not_eq_true _ |>.mp fun isObject => properties ⟨named, isObject⟩
    · exact Bool.not_eq_true _ |>.mp fun isObject => additional ⟨named, isObject⟩
  have arrays : attributeName = "items" → value.isArray = false := fun named =>
    Bool.not_eq_true _ |>.mp fun isArray => listed ⟨named, isArray⟩
  exact ((emits_fails _).congr_step (checkAttribute_here objects arrays)).congr fun _ _ =>
    (violates_here_iff objects arrays).symm

end attributes

mutual

theorem emits_validateAttributes (r : Rendering) (ignoreRequired : Bool) (value : Json)
    (schema : QJsonObject) : (attributes : QJsonObject) →
    Emits (fun path text => ∃ a ∈ attributes,
        ViolatesAttribute r ignoreRequired value schema a.1 a.2 path text)
      (validateAttributes r ignoreRequired value schema attributes)
  | [] => emits_skip.congr (by simp)
  | (attributeName, attributeValue) :: rest =>
    ((emits_checkAttribute (fun value => emits_validateWith r ignoreRequired value attributeValue)
      (fun object => emits_checkPropertiesWith r ignoreRequired object attributeValue)).andThen
      (emits_validateAttributes r ignoreRequired value schema rest)).congr (by simp)
termination_by structural attributes => attributes

theorem emits_validateWith (r : Rendering) (ignoreRequired : Bool) (value : Json) :
    (schema : Json) → Emits (Violates r ignoreRequired value schema)
      (validateWith r ignoreRequired value schema)
  | .object schema => (emits_validateAttributes r ignoreRequired value schema schema).congr
      fun _ _ => ⟨fun ⟨_, mem, violates⟩ => .attribute mem violates,
        fun (.attribute mem violates) => ⟨_, mem, violates⟩⟩
  | .null | .bool _ | .double _ | .string _ | .array _ =>
    emits_skip.congr fun _ _ => ⟨False.elim, nofun⟩
termination_by structural schema => schema

theorem emits_checkPropertiesWith (r : Rendering) (ignoreRequired : Bool) (object : QJsonObject) :
    (schema : Json) → Emits (fun path text => ∃ properties, schema = .object properties ∧
        ∃ p ∈ properties, ∃ rest, path = .member p.1 :: rest ∧
          PropertyViolates r ignoreRequired object p.1 p.2 rest text)
      (checkPropertiesWith r ignoreRequired object schema)
  | .object properties => (emits_checkProperties r ignoreRequired object properties).congr
      fun _ _ => ⟨fun found => ⟨properties, rfl, found⟩, fun ⟨_, same, found⟩ =>
        Json.object.inj same ▸ found⟩
  | .null | .bool _ | .double _ | .string _ | .array _ =>
    emits_skip.congr fun _ _ => ⟨False.elim, nofun⟩
termination_by structural schema => schema

theorem emits_checkProperties (r : Rendering) (ignoreRequired : Bool) (object : QJsonObject) :
    (properties : QJsonObject) → Emits (fun path text => ∃ p ∈ properties, ∃ rest,
        path = .member p.1 :: rest ∧ PropertyViolates r ignoreRequired object p.1 p.2 rest text)
      (checkProperties r ignoreRequired object properties)
  | [] => emits_skip.congr (by simp)
  | (property, propertyValue) :: rest => by
    have inner : Emits (PropertyViolates r ignoreRequired object property propertyValue)
        fun c => match object.value property with
          | some member => validateWith r ignoreRequired member propertyValue c
          | none => c.checkMissing ignoreRequired propertyValue := by
      cases held : object.value property with
      | some member =>
        refine (emits_validateWith r ignoreRequired member propertyValue).congr fun _ _ => ?_
        rw [PropertyViolates, held]
      | none =>
        refine ((emits_fails _).congr_step fun c => failIf_eq _ _ c).congr fun path text => ?_
        rw [PropertyViolates, held]
        cases ignoreRequired <;> simp [faultIf, demandsMember]
    exact ((inner.within (.member property)).andThen
      (emits_checkProperties r ignoreRequired object rest)).congr (by simp)
termination_by structural properties => properties

end

def follow : Json → List PathStep → Option Json
  | value, [] => some value
  | .object members, .member property :: rest =>
    (QJsonObject.value members property).bind (follow · rest)
  | .array items, .item i :: rest => items[i]?.bind (follow · rest)
  | _, _ => none

/-- The path leads to a node, or to a member missing from one. -/
def Leads (value : Json) (path : List PathStep) (text : String) : Prop :=
  (∃ node, follow value path = some node) ∨
    ∃ front property node, path = front ++ [.member property] ∧ text = "missing member" ∧
      follow value front = some node

theorem Leads.step {value member : Json} {s : PathStep} {path : List PathStep} {text : String}
    (here : ∀ rest, follow value (s :: rest) = follow member rest)
    (leads : Leads member path text) : Leads value (s :: path) text := by
  rcases leads with ⟨node, found⟩ | ⟨front, property, node, rfl, said, found⟩
  · exact Or.inl ⟨node, (here path).trans found⟩
  · exact Or.inr ⟨s :: front, property, node, rfl, said, (here front).trans found⟩

theorem leads_of_toObject {member : Json} {path : List PathStep} {text : String}
    (leads : Leads (.object member.toObject) path text) : Leads member path text := by
  have stays : ∀ path node, follow (.object member.toObject) path = some node →
      ∃ node, follow member path = some node := by
    intro path node found
    cases path with
    | nil => exact ⟨member, by cases member <;> rfl⟩
    | cons s rest =>
      cases member with
      | object members => exact ⟨node, found⟩
      | _ => cases s <;> exact nomatch found
  rcases leads with ⟨node, found⟩ | ⟨front, property, node, same, said, found⟩
  · exact Or.inl (stays path node found)
  · obtain ⟨node', found'⟩ := stays front node found
    exact Or.inr ⟨front, property, node', same, said, found'⟩

mutual

theorem Violates.leads {r : Rendering} {ignoreRequired : Bool} {value schema : Json}
    {path : List PathStep} {text : String} :
    Violates r ignoreRequired value schema path text → Leads value path text
  | .attribute _ violates => violates.leads

theorem ViolatesAttribute.leads {r : Rendering} {ignoreRequired : Bool}
    {value attributeValue : Json} {schema : QJsonObject} {attributeName text : String}
    {path : List PathStep} :
    ViolatesAttribute r ignoreRequired value schema attributeName attributeValue path text →
      Leads value path text
  | .here _ => Or.inl ⟨value, by cases value <;> rfl⟩
  | .property _ found violates => violates.leads.step fun rest => by
    rw [follow, found, Option.bind_some]
  | .missing .. => Or.inr ⟨[], _, _, rfl, rfl, rfl⟩
  | .undeclared mem _ => by
    obtain ⟨member, found⟩ := QJsonObject.mem_keys_iff.mp mem
    exact Or.inl ⟨member, by rw [follow, found, Option.bind_some]; cases member <;> rfl⟩
  | .additional mem _ _ violates => by
    obtain ⟨member, found⟩ := QJsonObject.mem_keys_iff.mp mem
    have inner := violates.leads
    rw [found, Option.elim_some] at inner
    exact (leads_of_toObject inner).step fun rest => by rw [follow, found, Option.bind_some]
  | .item found violates => violates.leads.step fun rest => by
    rw [follow, found, Option.bind_some]

end

def RestoresPath (step : QJsonSchemaChecker → QJsonSchemaChecker) : Prop :=
  ∀ c, (step c).currentPath = c.currentPath

theorem Emits.restoresPath {V : List PathStep → String → Prop}
    {step : QJsonSchemaChecker → QJsonSchemaChecker} (emits : Emits V step) :
    RestoresPath step := by
  obtain ⟨found, -, eq⟩ := emits
  intro c
  rw [eq]
  rfl

theorem restoresPath_foldl {α : Type} {items : List α}
    {step : QJsonSchemaChecker → α → QJsonSchemaChecker}
    (restores : ∀ item, RestoresPath fun c => step c item) :
    RestoresPath fun c => items.foldl step c := by
  induction items with
  | nil => exact fun _ => rfl
  | cons item rest ih => exact fun c => (ih (step c item)).trans (restores item c)

theorem restoresPath_within {step : QJsonSchemaChecker → QJsonSchemaChecker}
    (restores : RestoresPath step) (path : String) :
    RestoresPath fun c => (step (c.push path)).pop := by
  intro c
  change (step (c.push path)).currentPath.dropLast = c.currentPath
  rw [restores]
  exact List.dropLast_concat

/-- A validation succeeds exactly when it leaves no message; the messages are
those of the violations, each behind the path that leads to its node; and every
check that goes down to other nodes restores the path. -/
theorem validate_messages (r : Rendering) (schema value : QJsonObject) (ignoreRequired : Bool) :
    (validate r schema value ignoreRequired = true ↔
      (run r schema value ignoreRequired).getMessages = []) ∧
    (∀ message, message ∈ (run r schema value ignoreRequired).getMessages ↔ ∃ path text,
      Violates r ignoreRequired (.object value) (.object schema) path text ∧
        message = String.join ("[root]" :: path.map PathStep.text) ++ ": " ++ text) ∧
    (∀ path text, Violates r ignoreRequired (.object value) (.object schema) path text →
      Leads (.object value) path text) ∧
    ∀ attributeValue,
      (∀ object, RestoresPath (checkPropertiesWith r ignoreRequired object attributeValue)) ∧
      (∀ object ignored, RestoresPath fun c => c.checkAdditionalProperties object attributeValue
        (fun member => validateWith r ignoreRequired member attributeValue) ignored) ∧
      ∀ items, RestoresPath fun c => c.checkItems items
        fun item => validateWith r ignoreRequired item attributeValue := by
  refine ⟨?_, ?_, fun path text violates => violates.leads, fun attributeValue => ⟨?_, ?_, ?_⟩⟩
  · obtain ⟨found, -, eq⟩ := emits_validateWith r ignoreRequired (.object value) (.object schema)
    have last : run r schema value ignoreRequired = initial.emit found := eq initial
    rw [validate, getMessages, last]
    cases found <;> simp [emit, initial]
  · obtain ⟨found, exact, eq⟩ :=
      emits_validateWith r ignoreRequired (.object value) (.object schema)
    have last : run r schema value ignoreRequired = initial.emit found := eq initial
    intro message
    rw [getMessages, last]
    simp only [emit, initial, List.nil_append, List.mem_map, Prod.exists, exact]
    constructor
    · rintro ⟨path, text, violates, rfl⟩
      exact ⟨path, text, violates, rfl⟩
    · rintro ⟨path, text, violates, rfl⟩
      exact ⟨path, text, violates, rfl⟩
  · intro object
    exact (emits_checkPropertiesWith r ignoreRequired object attributeValue).restoresPath
  · intro object ignored
    refine restoresPath_foldl fun property => ?_
    refine @restoresPath_within (fun c =>
      if attributeValue.isBool then c.failIf (!attributeValue.toBool false) "no schema definition"
      else validateWith r ignoreRequired _ attributeValue c) ?_ _
    cases attributeValue.isBool with
    | true => exact ((emits_fails _).congr_step fun c => failIf_eq _ _ c).restoresPath
    | false => exact (emits_validateWith r ignoreRequired _ attributeValue).restoresPath
  · exact fun items => restoresPath_foldl fun entry => restoresPath_within
      (emits_validateWith r ignoreRequired entry.1 attributeValue).restoresPath _

end QJsonSchemaChecker

end HyperionNg
