import HyperionNg.Json

/-! Schemas of the supported keywords, as the objects they are written as and
as conditions on values. A reading says what each keyword demands by itself,
and what an undeclared member must be; properties and items are read alike. -/

namespace HyperionNg

inductive TypeName
  | string
  | number
  | integer
  | double
  | boolean
  | object
  | array
  | null
  | enum
  | any
deriving DecidableEq

def TypeName.text : TypeName → String
  | string => "string"
  | number => "number"
  | integer => "integer"
  | double => "double"
  | boolean => "boolean"
  | object => "object"
  | array => "array"
  | null => "null"
  | enum => "enum"
  | any => "any"

inductive Annotation
  | id
  | title
  | description
  | default
  | format
  | defaultProperties
  | propertyOrder
  | append
  | step
  | access
  | options
  | script
deriving DecidableEq

def Annotation.text : Annotation → String
  | id => "id"
  | title => "title"
  | description => "description"
  | default => "default"
  | format => "format"
  | defaultProperties => "defaultProperties"
  | propertyOrder => "propertyOrder"
  | append => "append"
  | step => "step"
  | access => "access"
  | options => "options"
  | script => "script"

inductive Keyword
  | type (name : TypeName)
  | properties (members : List (String × List Keyword))
  | required (flag : Bool)
  | additionalProperties (allowed : Bool)
  | additionalSchema (schema : List Keyword)
  | minimum (bound : ℚ)
  | maximum (bound : ℚ)
  | items (schema : List Keyword)
  | minItems (bound : Nat)
  | maxItems (bound : Nat)
  | uniqueItems (flag : Bool)
  | enum (values : List Json)
  | remark (name : Annotation) (value : Json)

abbrev Schema := List Keyword

mutual

def Keyword.toMember : Keyword → String × Json
  | .type name => ("type", .string name.text)
  | .properties members => ("properties", .object (propertiesToObject members))
  | .required flag => ("required", .bool flag)
  | .additionalProperties allowed => ("additionalProperties", .bool allowed)
  | .additionalSchema schema => ("additionalProperties", .object (schemaToObject schema))
  | .minimum bound => ("minimum", .double bound)
  | .maximum bound => ("maximum", .double bound)
  | .items schema => ("items", .object (schemaToObject schema))
  | .minItems bound => ("minItems", .double bound)
  | .maxItems bound => ("maxItems", .double bound)
  | .uniqueItems flag => ("uniqueItems", .bool flag)
  | .enum values => ("enum", .array values)
  | .remark name value => (name.text, value)

def schemaToObject : List Keyword → QJsonObject
  | [] => []
  | keyword :: rest => keyword.toMember :: schemaToObject rest

def propertiesToObject : List (String × List Keyword) → QJsonObject
  | [] => []
  | (property, schema) :: rest => (property, .object (schemaToObject schema)) ::
      propertiesToObject rest

end

def declared : Schema → List String
  | [] => []
  | .properties members :: _ => members.map Prod.fst
  | _ :: rest => declared rest

def isRequired : Schema → Bool
  | [] => false
  | .required flag :: _ => flag
  | _ :: rest => isRequired rest

/-- `demands` is asked for every keyword, given the declared properties;
`member` for every undeclared member against the schema for such members, given
the reading of that schema. -/
structure Reading where
  demands : List String → Keyword → Json → Prop
  member : Schema → (Json → Prop) → Json → Prop

mutual

def Keyword.Holds (r : Reading) (properties : List String) : Keyword → Json → Prop
  | .properties members, value =>
    r.demands properties (.properties members) value ∧ PropertiesHold r members value.toObject
  | .items schema, value => r.demands properties (.items schema) value ∧
      ∀ item ∈ value.toArray, KeywordsHold r (declared schema) schema item
  | .additionalSchema schema, value => r.demands properties (.additionalSchema schema) value ∧
      ∀ property member, value.toObject.value property = some member → property ∉ properties →
        r.member schema (fun member => KeywordsHold r (declared schema) schema member) member
  | keyword, value => r.demands properties keyword value

def KeywordsHold (r : Reading) (properties : List String) : List Keyword → Json → Prop
  | [], _ => True
  | keyword :: rest, value =>
    keyword.Holds r properties value ∧ KeywordsHold r properties rest value

def PropertiesHold (r : Reading) : List (String × List Keyword) → QJsonObject → Prop
  | [], _ => True
  | (property, schema) :: rest, object =>
    (∀ member, object.value property = some member →
      KeywordsHold r (declared schema) schema member) ∧ PropertiesHold r rest object

end

def Schema.Holds (r : Reading) (schema : Schema) (value : Json) : Prop :=
  KeywordsHold r (declared schema) schema value

def TypeName.Meets : TypeName → Json → Prop
  | string, value => value.isString
  | number, value => value.isDouble
  | integer, value => ∃ d : ℚ, value = .double d ∧ d.den = 1
  | double, value => value.isDouble
  | boolean, value => value.isBool
  | object, value => value.isObject
  | array, value => value.isArray
  | null, value => value.isNull
  | enum, value => value.isString
  | any, _ => True

def Keyword.Demands (properties : List String) : Keyword → Json → Prop
  | .type name, value => name.Meets value
  | .properties members, value => value.isObject ∧ ∀ property schema, (property, schema) ∈ members →
      isRequired schema = true → (value.toObject.value property).isSome
  | .required _, _ => True
  | .additionalProperties allowed, value => value.isObject ∧ (allowed = false →
      ∀ property member, value.toObject.value property = some member → property ∈ properties)
  | .additionalSchema _, value => value.isObject
  | .minimum bound, value => ∃ d, value = .double d ∧ bound ≤ d
  | .maximum bound, value => ∃ d, value = .double d ∧ d ≤ bound
  | .items _, value => value.isArray
  | .minItems bound, value => value.isArray ∧ bound ≤ value.toArray.length
  | .maxItems bound, value => value.isArray ∧ value.toArray.length ≤ bound
  | .uniqueItems flag, value => value.isArray ∧ (flag = true → value.toArray.Nodup)
  | .enum values, value => value ∈ values
  | .remark _ _, _ => True

def Reading.draft : Reading where
  demands := Keyword.Demands
  member _ conforms member := conforms member

def Conforms (schema : Schema) (value : Json) : Prop := schema.Holds .draft value

end HyperionNg
