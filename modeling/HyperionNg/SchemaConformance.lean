import HyperionNg.QJsonSchemaChecker
import HyperionNg.JsonSchema

/-! The checker against the draft. Its verdict is a reading of the schema too,
which differs from the draft's in three places: an `integer` may be anything
that is no number, an undeclared member that is no object is checked as an
empty one, and a size beyond `int` counts as 0. -/

namespace HyperionNg

open QJsonSchemaChecker

def Keyword.Checked (properties : List String) : Keyword → Json → Prop
  | .type .integer, value => (value.toDouble 0).den = 1
  | .minItems bound, value =>
    value.isArray ∧ (Json.double bound).toInt 0 ≤ (value.toArray.length : Int)
  | .maxItems bound, value =>
    value.isArray ∧ (value.toArray.length : Int) ≤ (Json.double bound).toInt 0
  | keyword, value => keyword.Demands properties value

def Reading.checker : Reading where
  demands := Keyword.Checked
  member _ holds member := holds (.object member.toObject)

/-- The step sets the error flag exactly when `P` fails. -/
def Decides (P : Prop) (step : QJsonSchemaChecker → QJsonSchemaChecker) : Prop :=
  ∀ c, (step c).error = false ↔ c.error = false ∧ P

section Decides

variable {P Q : Prop} {step next : QJsonSchemaChecker → QJsonSchemaChecker}

theorem Decides.congr (decides : Decides P step) (same : P ↔ Q) : Decides Q step :=
  fun c => (decides c).trans (and_congr_right' same)

theorem decides_skip : Decides True fun c => c := fun _ => (and_iff_left trivial).symm

theorem Decides.andThen (first : Decides P step) (second : Decides Q next) :
    Decides (P ∧ Q) fun c => next (step c) := by
  intro c
  rw [second, first, and_assoc]

theorem decides_fail (message : String) : Decides False fun c => c.fail message := by
  intro c
  simp [fail, setMessage]

theorem decides_failIf (condition : Bool) (message : String) :
    Decides (condition = false) fun c => c.failIf condition message := by
  intro c
  cases condition with
  | false => simp [failIf]
  | true => simp [failIf, fail, setMessage]

theorem Decides.ite {condition : Prop} [Decidable condition] (yes : Decides P step)
    (no : Decides False next) :
    Decides (condition ∧ P) fun c => if condition then step c else next c := by
  intro c
  by_cases holds : condition
  · simpa [holds] using yes c
  · simpa [holds] using no c

theorem decides_foldl {α : Type} {items : List α} {P : α → Prop}
    {step : QJsonSchemaChecker → α → QJsonSchemaChecker}
    (decides : ∀ item ∈ items, Decides (P item) fun c => step c item) :
    Decides (∀ item ∈ items, P item) fun c => items.foldl step c := by
  induction items with
  | nil => simpa using decides_skip
  | cons item rest ih =>
    have later := ih fun other mem => decides other (by simp [mem])
    exact ((decides item (by simp)).andThen later).congr (by simp)

theorem Decides.within (decides : Decides P step) (path : String) :
    Decides P fun c => (step (c.push path)).pop := by
  intro c
  exact decides (c.push path)

end Decides

theorem wrongType_iff (properties : List String) (name : TypeName) (value : Json) :
    wrongType name.text value = false ↔ (Keyword.type name).Checked properties value := by
  cases name <;> cases value <;>
    simp [wrongType, TypeName.text, Keyword.Checked, Keyword.Demands, TypeName.Meets,
      Json.isString, Json.isDouble, Json.isBool, Json.isObject, Json.isArray, Json.isNull,
      hasFraction, Json.toDouble]

theorem equalPairs_eq_zero_iff (items : List Json) : equalPairs items = 0 ↔ items.Nodup := by
  induction items with
  | nil => simp [equalPairs]
  | cons item rest ih => simp [equalPairs, ih, List.count_eq_zero]

theorem decides_unique (items : List Json) (message : String) :
    Decides items.Nodup
      fun c => (List.replicate (equalPairs items) message).foldl QJsonSchemaChecker.fail c := by
  rw [← equalPairs_eq_zero_iff]
  refine (decides_foldl (P := fun _ => False) fun message _ => decides_fail message).congr ?_
  cases equalPairs items with
  | zero => simp
  | succ n => simp

theorem declared_eq (schema : Schema) :
    (((schemaToObject schema).value "properties").elim [] fun props => props.toObject.keys) =
      declared schema := by
  have names : ∀ members, (propertiesToObject members).keys = members.map Prod.fst := by
    intro members
    induction members with
    | nil => rfl
    | cons member rest ih =>
      unfold QJsonObject.keys at ih ⊢
      rw [propertiesToObject, List.map_cons, ih, List.map_cons]
  induction schema with
  | nil => rfl
  | cons keyword rest ih =>
    cases keyword with
    | properties members =>
      rw [schemaToObject, Keyword.toMember, QJsonObject.value_cons_self]
      exact names members
    | remark name value =>
      have other : "properties" ≠ name.text := by cases name <;> decide
      rwa [schemaToObject, Keyword.toMember, QJsonObject.value_cons_of_ne other]
    | _ => rwa [schemaToObject, Keyword.toMember, QJsonObject.value_cons_of_ne (by decide)]

theorem required_eq (schema : Schema) :
    (((schemaToObject schema).value "required").elim false (Json.toBool false)) =
      isRequired schema := by
  induction schema with
  | nil => rfl
  | cons keyword rest ih =>
    cases keyword with
    | required flag =>
      rw [schemaToObject, Keyword.toMember, QJsonObject.value_cons_self]
      rfl
    | remark name value =>
      have other : "required" ≠ name.text := by cases name <;> decide
      rwa [schemaToObject, Keyword.toMember, QJsonObject.value_cons_of_ne other]
    | _ => rwa [schemaToObject, Keyword.toMember, QJsonObject.value_cons_of_ne (by decide)]

section Attributes

variable {r : Rendering} {value : Json} {P : Json → Prop} {Q : QJsonObject → Prop}
  {validate : Json → QJsonSchemaChecker → QJsonSchemaChecker}

theorem decides_items (validates : ∀ item, Decides (P item) (validate item)) :
    Decides (value.isArray ∧ ∀ item ∈ value.toArray, P item) fun c =>
      if value.isArray then c.checkItems value.toArray validate
      else c.fail "items only valid for arrays" := by
  refine Decides.ite ?_ (decides_fail _)
  have all : (∀ entry ∈ value.toArray.zipIdx, P entry.1) ↔ ∀ item ∈ value.toArray, P item := by
    conv_rhs => rw [← List.zipIdx_map_fst 0 value.toArray]
    rw [List.forall_mem_map]
  exact (decides_foldl fun entry _ => (validates entry.1).within _).congr all

theorem decides_additional {members : QJsonObject} {schema : Json} {ignored : List String}
    {P : Json → Prop} (decides : ∀ property member, members.value property = some member →
      Decides (P member) fun c =>
        if schema.isBool then c.failIf (!schema.toBool false) "no schema definition"
        else validate (.object member.toObject) c) :
    Decides (∀ property member, members.value property = some member →
        property ∉ ignored → P member)
      fun c => c.checkAdditionalProperties members schema validate ignored := by
  have listed : ∀ {property},
      property ∈ members.keys.filter (fun property => !ignored.contains property) ↔
        (∃ member, members.value property = some member) ∧ property ∉ ignored := by
    intro property
    rw [List.mem_filter, QJsonObject.mem_keys_iff]
    simp
  have each : ∀ property ∈ members.keys.filter (fun property => !ignored.contains property),
      Decides (∀ member, members.value property = some member → P member) fun c =>
        ((if schema.isBool then (c.push ("." ++ property)).failIf (!schema.toBool false)
            "no schema definition"
          else validate (.object ((members.value property).elim [] Json.toObject))
            (c.push ("." ++ property)))).pop := by
    intro property mem
    obtain ⟨⟨member, found⟩, _⟩ := listed.mp mem
    have decided := (decides property member found).within ("." ++ property)
    simp only [found, Option.elim_some, Option.some.injEq, forall_eq'] at decided ⊢
    exact decided
  refine (decides_foldl each).congr ⟨?_, ?_⟩
  · intro all property member found undeclared
    exact all property (listed.mpr ⟨⟨member, found⟩, undeclared⟩) member found
  · intro all property mem member found
    exact all property member found (listed.mp mem).2

end Attributes

def keywordStep (r : Rendering) (schema : Schema) (value : Json) (keyword : Keyword)
    (c : QJsonSchemaChecker) : QJsonSchemaChecker :=
  c.checkAttribute r value (schemaToObject schema) keyword.toMember.1 keyword.toMember.2
    (fun value => validateWith r false value keyword.toMember.2)
    (fun value => checkPropertiesWith r false value keyword.toMember.2)

section Keywords

variable (r : Rendering) (schema : Schema) (value : Json)

private theorem type_decides (name : TypeName) :
    Decides ((Keyword.type name).Checked (declared schema) value)
      (keywordStep r schema value (.type name)) :=
  (decides_failIf _ _).congr (wrongType_iff (declared schema) name value)

theorem decides_ofKind (ofKind violated : Bool) (message wrongKind : String) :
    Decides (ofKind = true ∧ violated = false) fun c =>
      if ofKind then c.failIf violated message else c.fail wrongKind :=
  Decides.ite (decides_failIf violated message) (decides_fail wrongKind)

theorem minimum_decides (bound : ℚ) :
    Decides ((Keyword.minimum bound).Checked (declared schema) value)
      (keywordStep r schema value (.minimum bound)) := by
  change Decides _ (checkMinimum r value (.double bound))
  refine (decides_ofKind _ _ _ _).congr ?_
  rw [decide_eq_false_iff_not]
  cases value <;> simp [Keyword.Checked, Keyword.Demands, Json.isDouble, Json.toDouble]

theorem maximum_decides (bound : ℚ) :
    Decides ((Keyword.maximum bound).Checked (declared schema) value)
      (keywordStep r schema value (.maximum bound)) := by
  change Decides _ (checkMaximum r value (.double bound))
  refine (decides_ofKind _ _ _ _).congr ?_
  rw [decide_eq_false_iff_not]
  cases value <;> simp [Keyword.Checked, Keyword.Demands, Json.isDouble, Json.toDouble]

private theorem minItems_decides (bound : Nat) :
    Decides ((Keyword.minItems bound).Checked (declared schema) value)
      (keywordStep r schema value (.minItems bound)) := by
  change Decides _ (checkMinItems value (.double bound))
  refine (decides_ofKind _ _ _ _).congr ?_
  simp [Keyword.Checked]

private theorem maxItems_decides (bound : Nat) :
    Decides ((Keyword.maxItems bound).Checked (declared schema) value)
      (keywordStep r schema value (.maxItems bound)) := by
  change Decides _ (checkMaxItems value (.double bound))
  refine (decides_ofKind _ _ _ _).congr ?_
  simp [Keyword.Checked]

theorem uniqueItems_decides (flag : Bool) :
    Decides ((Keyword.uniqueItems flag).Checked (declared schema) value)
      (keywordStep r schema value (.uniqueItems flag)) := by
  change Decides _ (checkUniqueItems value (.bool flag))
  cases flag with
  | false =>
    exact (Decides.ite decides_skip (decides_fail _)).congr
      (by simp [Keyword.Checked, Keyword.Demands])
  | true =>
    exact (Decides.ite (decides_unique value.toArray _) (decides_fail _)).congr
      (by simp [Keyword.Checked, Keyword.Demands])

private theorem enum_decides (values : List Json) :
    Decides ((Keyword.enum values).Checked (declared schema) value)
      (keywordStep r schema value (.enum values)) := by
  change Decides _ (checkEnum r value (.array values))
  exact (decides_failIf _ _).congr (by simp [Keyword.Checked, Keyword.Demands, Json.toArray])

theorem additionalProperties_decides (allowed : Bool) :
    Decides ((Keyword.additionalProperties allowed).Checked (declared schema) value)
      (keywordStep r schema value (.additionalProperties allowed)) := by
  have step : keywordStep r schema value (.additionalProperties allowed) = fun c =>
      if value.isObject then
        c.checkAdditionalProperties value.toObject (.bool allowed)
          (fun value => validateWith r false value (.bool allowed)) (declared schema)
      else c.fail "additional properties attribute is only valid for objects" := by
    funext c
    simp [keywordStep, checkAttribute, Keyword.toMember, declared_eq]
  rw [step]
  refine (Decides.ite (decides_additional (P := fun _ => allowed = true) ?_)
    (decides_fail _)).congr ?_
  · intro property member _
    exact (decides_failIf _ _).congr (by simp [Json.toBool])
  · refine and_congr_right fun _ => ?_
    cases allowed with
    | false =>
      simp only [Bool.false_eq_true, imp_false, not_not, forall_const]
    | true => simp

theorem ignored_decides {keyword : Keyword} (ignored : keyword.toMember.1 ∈ ignoredAttributes) :
    Decides True (keywordStep r schema value keyword) := by
  have step : keywordStep r schema value keyword = fun c => c := by
    funext c
    unfold keywordStep
    generalize keyword.toMember.1 = name at ignored
    fin_cases ignored <;> simp [checkAttribute, ignoredAttributes]
  rw [step]
  exact decides_skip

end Keywords

def memberStep (r : Rendering) (schema : Schema) (held : Option Json) (c : QJsonSchemaChecker) :
    QJsonSchemaChecker :=
  match held with
  | some member =>
    validateAttributes r false member (schemaToObject schema) (schemaToObject schema) c
  | none => c.checkMissing false (.object (schemaToObject schema))

mutual

theorem keyword_decides (r : Rendering) (schema : Schema) : (keyword : Keyword) → (value : Json) →
    Decides (keyword.Holds .checker (declared schema) value) (keywordStep r schema value keyword)
  | .type name, value => type_decides r schema value name
  | .minimum bound, value => minimum_decides r schema value bound
  | .maximum bound, value => maximum_decides r schema value bound
  | .minItems bound, value => minItems_decides r schema value bound
  | .maxItems bound, value => maxItems_decides r schema value bound
  | .uniqueItems flag, value => uniqueItems_decides r schema value flag
  | .enum values, value => enum_decides r schema value values
  | .additionalProperties allowed, value => additionalProperties_decides r schema value allowed
  | .required flag, value =>
    ignored_decides r schema value (by simp [Keyword.toMember, ignoredAttributes])
  | .remark name attributeValue, value => ignored_decides r schema value
    (by cases name <;> simp [Keyword.toMember, Annotation.text, ignoredAttributes])
  | .items inner, value => by
    have step : keywordStep r schema value (.items inner) = fun c =>
        if value.isArray then c.checkItems value.toArray fun item =>
          validateAttributes r false item (schemaToObject inner) (schemaToObject inner)
        else c.fail "items only valid for arrays" := by
      funext c
      simp [keywordStep, checkAttribute, Keyword.toMember, validateWith]
    rw [step]
    exact decides_items fun item => keywords_decide r inner inner item
  | .additionalSchema inner, value => by
    have step : keywordStep r schema value (.additionalSchema inner) = fun c =>
        if value.isObject then
          c.checkAdditionalProperties value.toObject (.object (schemaToObject inner)) (fun member =>
            validateAttributes r false member (schemaToObject inner) (schemaToObject inner))
            (declared schema)
        else c.fail "additional properties attribute is only valid for objects" := by
      funext c
      simp [keywordStep, checkAttribute, Keyword.toMember, validateWith, declared_eq]
    rw [step]
    refine (Decides.ite (decides_additional (P := fun member =>
      KeywordsHold .checker (declared inner) inner (.object member.toObject))
      fun property member _ => ?_) (decides_fail _)).congr Iff.rfl
    exact keywords_decide r inner inner (.object member.toObject)
  | .properties members, value => by
    have step : keywordStep r schema value (.properties members) = fun c =>
        if value.isObject then
          checkProperties r false value.toObject (propertiesToObject members) c
        else c.fail "properties attribute is only valid for objects" := by
      funext c
      simp [keywordStep, checkAttribute, Keyword.toMember, checkPropertiesWith]
    rw [step]
    refine (Decides.ite (properties_decide r members value.toObject) (decides_fail _)).congr ?_
    rw [← and_assoc, and_right_comm]
    rfl

theorem keywords_decide (r : Rendering) (schema : Schema) : (keywords : List Keyword) →
    (value : Json) → Decides (KeywordsHold .checker (declared schema) keywords value)
      (validateAttributes r false value (schemaToObject schema) (schemaToObject keywords))
  | [], _ => decides_skip
  | keyword :: rest, value =>
    (keyword_decides r schema keyword value).andThen (keywords_decide r schema rest value)

theorem properties_decide (r : Rendering) : (members : List (String × List Keyword)) →
    (object : QJsonObject) → Decides (PropertiesHold .checker members object ∧
      ∀ property schema, (property, schema) ∈ members → isRequired schema = true →
        (object.value property).isSome = true)
      (checkProperties r false object (propertiesToObject members))
  | [], _ => decides_skip.congr (by simp [PropertiesHold])
  | (property, schema) :: rest, object => by
    have step : checkProperties r false object (propertiesToObject ((property, schema) :: rest)) =
        fun c => checkProperties r false object (propertiesToObject rest)
          (memberStep r schema (object.value property) (c.push ("." ++ property))).pop := by
      funext c
      cases found : object.value property with
      | none => simp [propertiesToObject, checkProperties, memberStep, found]
      | some member => simp [propertiesToObject, checkProperties, memberStep, found, validateWith]
    have member : ∀ held, Decides ((∀ member, held = some member →
        KeywordsHold .checker (declared schema) schema member) ∧
          (isRequired schema = true → held.isSome = true)) (memberStep r schema held) := by
      intro held
      cases held with
      | none =>
        have missing : memberStep r schema none = fun c =>
            c.failIf (isRequired schema) "missing member" := by
          funext c
          simp [memberStep, checkMissing, Json.toObject, required_eq]
        rw [missing]
        exact (decides_failIf _ _).congr (by simp)
      | some member => exact (keywords_decide r schema schema member).congr (by simp)
    rw [step]
    refine (((member _).within _).andThen (properties_decide r rest object)).congr ?_
    simp only [PropertiesHold, List.mem_cons]
    constructor
    · rintro ⟨⟨holds, present⟩, others, required⟩
      refine ⟨⟨holds, others⟩, fun property' schema' mem => ?_⟩
      cases mem with
      | inl here =>
        obtain ⟨rfl, rfl⟩ := Prod.mk.inj here
        exact present
      | inr later => exact required property' schema' later
    · rintro ⟨⟨holds, others⟩, required⟩
      exact ⟨⟨holds, required property schema (Or.inl rfl)⟩, others,
        fun property' schema' mem => required property' schema' (Or.inr mem)⟩

end

theorem validate_iff (r : Rendering) (schema : Schema) (value : QJsonObject) :
    validate r (schemaToObject schema) value false = true ↔
      schema.Holds .checker (.object value) := by
  rw [validate, Bool.not_eq_true', run, keywords_decide r schema schema (.object value)]
  exact and_iff_right rfl

def Keyword.Common (properties : List String) : Keyword → Json → Prop
  | .type .integer, value => ∀ d : ℚ, value = .double d → d.den = 1
  | .minItems bound, value => value.isArray ∧ (bound < 2 ^ 31 → bound ≤ value.toArray.length)
  | .maxItems bound, value => value.isArray ∧ (bound < 2 ^ 31 → value.toArray.length ≤ bound)
  | keyword, value => keyword.Demands properties value

def Reading.common : Reading where
  demands := Keyword.Common
  member _ holds member := member.isObject → holds member

/-- What only the draft demands: numbers for integers, and sizes beyond `int`. -/
def Keyword.OnlyDraft : Keyword → Json → Prop
  | .type .integer, value => value.isDouble
  | .minItems bound, value => 2 ^ 31 ≤ bound → bound ≤ value.toArray.length
  | .maxItems bound, value => 2 ^ 31 ≤ bound → value.toArray.length ≤ bound
  | _, _ => True

/-- Undeclared members that are no objects have to conform too. -/
def Reading.onlyDraft : Reading where
  demands _ := Keyword.OnlyDraft
  member schema holds member := if member.isObject then holds member else Conforms schema member

/-- What only the checker demands: a size beyond `int` allows no items. -/
def Keyword.OnlyChecker : Keyword → Json → Prop
  | .maxItems bound, value => 2 ^ 31 ≤ bound → value.toArray = []
  | _, _ => True

def Keyword.AcceptsEmpty : Keyword → Prop
  | .type name => name = .object ∨ name = .integer ∨ name = .any
  | .properties members =>
    ∀ property schema, (property, schema) ∈ members → isRequired schema = false
  | .required _ | .additionalProperties _ | .additionalSchema _ | .remark _ _ => True
  | .minimum _ | .maximum _ | .items _ | .minItems _ | .maxItems _ | .uniqueItems _ => False
  | .enum values => .object [] ∈ values

def Schema.AcceptsEmpty (schema : Schema) : Prop := ∀ keyword ∈ schema, keyword.AcceptsEmpty

/-- An undeclared member that is no object is replaced by an empty one. -/
def Reading.onlyChecker : Reading where
  demands _ := Keyword.OnlyChecker
  member schema holds member := if member.isObject then holds member else schema.AcceptsEmpty

private theorem propertiesHold_nil (r : Reading) (members : List (String × List Keyword)) :
    PropertiesHold r members [] := by
  induction members with
  | nil => trivial
  | cons member rest ih => exact ⟨nofun, ih⟩

theorem keyword_holds_empty (properties : List String) (keyword : Keyword) :
    keyword.Holds .checker properties (.object []) ↔ keyword.AcceptsEmpty := by
  cases keyword with
  | type name =>
    cases name <;> simp [Keyword.Holds, Reading.checker, Keyword.Checked, Keyword.Demands,
      Keyword.AcceptsEmpty, TypeName.Meets, Json.isString, Json.isDouble, Json.isBool,
      Json.isObject, Json.isArray, Json.isNull, Json.toDouble]
  | properties members =>
    simp [Keyword.Holds, Reading.checker, Keyword.Checked, Keyword.Demands, Keyword.AcceptsEmpty,
      Json.isObject, Json.toObject, QJsonObject.value, propertiesHold_nil]
  | _ =>
    simp [Keyword.Holds, Reading.checker, Keyword.Checked, Keyword.Demands, Keyword.AcceptsEmpty,
      Json.isObject, Json.isArray, Json.toObject, QJsonObject.value]

theorem holds_empty_iff (schema : Schema) :
    schema.Holds .checker (.object []) ↔ schema.AcceptsEmpty := by
  have all : ∀ properties keywords, KeywordsHold .checker properties keywords (.object []) ↔
      ∀ keyword ∈ keywords, keyword.AcceptsEmpty := by
    intro properties keywords
    induction keywords with
    | nil => simp [KeywordsHold]
    | cons keyword rest ih =>
      rw [KeywordsHold, keyword_holds_empty, ih, List.forall_mem_cons]
  exact all _ schema

structure Reading.Splits (r o p : Reading) : Prop where
  demands : ∀ properties keyword value, r.demands properties keyword value ↔
    o.demands properties keyword value ∧ p.demands properties keyword value
  member : ∀ (schema : Schema) member,
    (∀ value, schema.Holds r value ↔ schema.Holds o value ∧ schema.Holds p value) →
    (r.member schema (schema.Holds r) member ↔
      o.member schema (schema.Holds o) member ∧ p.member schema (schema.Holds p) member)

variable {r o p : Reading}

mutual

theorem keyword_holds_split (splits : r.Splits o p) (properties : List String) :
    (keyword : Keyword) → (value : Json) → (keyword.Holds r properties value ↔
      keyword.Holds o properties value ∧ keyword.Holds p properties value)
  | .type name, value => splits.demands properties (.type name) value
  | .required flag, value => splits.demands properties (.required flag) value
  | .additionalProperties allowed, value =>
    splits.demands properties (.additionalProperties allowed) value
  | .minimum bound, value => splits.demands properties (.minimum bound) value
  | .maximum bound, value => splits.demands properties (.maximum bound) value
  | .minItems bound, value => splits.demands properties (.minItems bound) value
  | .maxItems bound, value => splits.demands properties (.maxItems bound) value
  | .uniqueItems flag, value => splits.demands properties (.uniqueItems flag) value
  | .enum values, value => splits.demands properties (.enum values) value
  | .remark name content, value => splits.demands properties (.remark name content) value
  | .properties inner, value => by
    rw [Keyword.Holds, Keyword.Holds, Keyword.Holds, splits.demands,
      properties_hold_split splits inner]
    exact and_and_and_comm
  | .items schema, value => by
    have each : ∀ item, _ := fun item => keywords_hold_split splits (declared schema) schema item
    rw [Keyword.Holds, Keyword.Holds, Keyword.Holds, splits.demands, and_and_and_comm,
      ← forall₂_and]
    simp only [each]
  | .additionalSchema schema, value => by
    have each : ∀ member, _ := fun member =>
      keywords_hold_split splits (declared schema) schema member
    have same : ∀ member, _ := fun member => splits.member schema member each
    unfold Schema.Holds at same
    rw [Keyword.Holds, Keyword.Holds, Keyword.Holds, splits.demands, and_and_and_comm]
    simp only [same, ← forall_and]

theorem keywords_hold_split (splits : r.Splits o p) (properties : List String) :
    (keywords : List Keyword) → (value : Json) → (KeywordsHold r properties keywords value ↔
      KeywordsHold o properties keywords value ∧ KeywordsHold p properties keywords value)
  | [], _ => (and_self_iff).symm
  | keyword :: rest, value => by
    rw [KeywordsHold, KeywordsHold, KeywordsHold, keyword_holds_split splits properties keyword,
      keywords_hold_split splits properties rest]
    exact and_and_and_comm

theorem properties_hold_split (splits : r.Splits o p) :
    (inner : List (String × List Keyword)) → (object : QJsonObject) →
    (PropertiesHold r inner object ↔ PropertiesHold o inner object ∧ PropertiesHold p inner object)
  | [], _ => (and_self_iff).symm
  | (property, schema) :: rest, object => by
    have each : ∀ member, _ := fun member =>
      keywords_hold_split splits (declared schema) schema member
    rw [PropertiesHold, PropertiesHold, PropertiesHold, properties_hold_split splits rest,
      and_and_and_comm, ← forall₂_and]
    simp only [each]

end

private theorem holds_split (splits : r.Splits o p) (schema : Schema) (value : Json) :
    schema.Holds r value ↔ schema.Holds o value ∧ schema.Holds p value :=
  keywords_hold_split splits (declared schema) schema value

theorem demands_split (properties : List String) (keyword : Keyword) (value : Json) :
    keyword.Demands properties value ↔
      keyword.Common properties value ∧ keyword.OnlyDraft value := by
  cases keyword with
  | type name =>
    cases name <;> cases value <;>
      simp [Keyword.Demands, Keyword.Common, Keyword.OnlyDraft, TypeName.Meets, Json.isDouble]
  | minItems bound =>
    simp only [Keyword.Demands, Keyword.Common, Keyword.OnlyDraft, and_assoc]
    refine and_congr_right fun _ => ?_
    omega
  | maxItems bound =>
    simp only [Keyword.Demands, Keyword.Common, Keyword.OnlyDraft, and_assoc]
    refine and_congr_right fun _ => ?_
    omega
  | _ => simp [Keyword.Common, Keyword.OnlyDraft]

private theorem toInt_bound (bound : Nat) :
    (Json.double bound).toInt 0 = if bound < 2 ^ 31 then (bound : Int) else 0 := by
  simp [Json.toInt]

theorem checked_split (properties : List String) (keyword : Keyword) (value : Json) :
    keyword.Checked properties value ↔
      keyword.Common properties value ∧ keyword.OnlyChecker value := by
  cases keyword with
  | type name =>
    cases name <;> cases value <;>
      simp [Keyword.Checked, Keyword.Demands, Keyword.Common, Keyword.OnlyChecker, TypeName.Meets,
        Json.toDouble]
  | minItems bound =>
    simp only [Keyword.Checked, Keyword.Common, Keyword.OnlyChecker, and_true, toInt_bound]
    refine and_congr_right fun _ => ?_
    split_ifs <;> omega
  | maxItems bound =>
    simp only [Keyword.Checked, Keyword.Common, Keyword.OnlyChecker, and_assoc, toInt_bound,
      ← List.length_eq_zero_iff]
    refine and_congr_right fun _ => ?_
    split_ifs <;> omega
  | _ => simp [Keyword.Checked, Keyword.Common, Keyword.OnlyChecker]

theorem draft_splits : Reading.draft.Splits .common .onlyDraft where
  demands := demands_split
  member schema member split := by
    change Conforms schema member ↔ (member.isObject = true → schema.Holds .common member) ∧
      if member.isObject = true then schema.Holds .onlyDraft member else Conforms schema member
    by_cases object : member.isObject = true
    · rw [if_pos object, imp_iff_right object]
      exact split member
    · rw [if_neg object]
      exact (and_iff_right fun h => absurd h object).symm

theorem checker_splits : Reading.checker.Splits .common .onlyChecker where
  demands := checked_split
  member schema member split := by
    change schema.Holds .checker (.object member.toObject) ↔
      (member.isObject = true → schema.Holds .common member) ∧
        if member.isObject = true then schema.Holds .onlyChecker member else schema.AcceptsEmpty
    by_cases object : member.isObject = true
    · rw [if_pos object, imp_iff_right object]
      obtain ⟨members, rfl⟩ := Json.isObject_iff.mp object
      exact split (.object members)
    · have empty : member.toObject = [] := by
        cases member with
        | object members => exact absurd rfl object
        | _ => rfl
      rw [if_neg object, empty, holds_empty_iff]
      exact (and_iff_right fun h => absurd h object).symm

/-- The checker gives the draft's verdict when the value breaks what both
demand, or when it meets what only the one demands exactly if it meets what only
the other does. -/
theorem validate_agrees_iff (r : Rendering) (schema : Schema) (value : QJsonObject) :
    (validate r (schemaToObject schema) value false = true ↔ Conforms schema (.object value)) ↔
      ¬ schema.Holds .common (.object value) ∨
        (schema.Holds .onlyChecker (.object value) ↔ schema.Holds .onlyDraft (.object value)) := by
  rw [validate_iff, holds_split checker_splits, Conforms, holds_split draft_splits]
  tauto

def prioritySchema : Schema :=
  [.type .object, .properties [("priority", [.type .integer, .required true])]]

theorem text_is_no_integer :
    validate .blank (schemaToObject prioritySchema) [("priority", .string "high")] false = true ∧
      ¬ Conforms prioritySchema (.object [("priority", .string "high")]) := by
  refine ⟨by decide, fun conforms => ?_⟩
  obtain ⟨_, ⟨_, properties⟩, _⟩ := conforms
  obtain ⟨⟨d, number, _⟩, _⟩ := properties.1 (.string "high") rfl
  exact absurd number nofun

end HyperionNg
