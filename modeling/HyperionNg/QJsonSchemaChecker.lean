import HyperionNg.Json

/-! The schema checker: one pass over the attributes of a schema for each value,
with an error flag and the messages kept along the way. -/

namespace HyperionNg

structure Rendering where
  double : ℚ → String
  compact : List Json → String

def Rendering.blank : Rendering where
  double _ := ""
  compact _ := ""

structure QJsonSchemaChecker where
  error : Bool := false
  messages : List String := []
  currentPath : List String := []
deriving DecidableEq

namespace QJsonSchemaChecker

def push (c : QJsonSchemaChecker) (step : String) : QJsonSchemaChecker :=
  { c with currentPath := c.currentPath ++ [step] }

def pop (c : QJsonSchemaChecker) : QJsonSchemaChecker :=
  { c with currentPath := c.currentPath.dropLast }

def setMessage (c : QJsonSchemaChecker) (message : String) : QJsonSchemaChecker :=
  { c with messages := c.messages ++ [String.join c.currentPath ++ ": " ++ message] }

/-- `_error = true; setMessage(message)` -/
def fail (c : QJsonSchemaChecker) (message : String) : QJsonSchemaChecker :=
  { c with error := true }.setMessage message

def failIf (condition : Bool) (message : String) (c : QJsonSchemaChecker) : QJsonSchemaChecker :=
  if condition then c.fail message else c

/-- `rint(d) != d`, for a finite `d` -/
def hasFraction (d : ℚ) : Bool := !(d.den == 1)

/-- A value that is no number counts as 0 where an integer is expected. -/
def wrongType (type : String) (value : Json) : Bool :=
  if type = "string" then !value.isString
  else if type = "number" then !value.isDouble
  else if type = "integer" then hasFraction (value.toDouble 0)
  else if type = "double" then !value.isDouble
  else if type = "boolean" then !value.isBool
  else if type = "object" then !value.isObject
  else if type = "array" then !value.isArray
  else if type = "null" then !value.isNull
  else if type = "enum" then !value.isString
  else false

def checkType (value schema : Json) (c : QJsonSchemaChecker) : QJsonSchemaChecker :=
  c.failIf (wrongType (schema.toString "") value) (schema.toString "" ++ " expected")

def checkMinimum (r : Rendering) (value schema : Json) (c : QJsonSchemaChecker) :
    QJsonSchemaChecker :=
  if value.isDouble then
    c.failIf (value.toDouble 0 < schema.toDouble 0)
      ("value is too small (minimum=" ++ r.double (schema.toDouble 0) ++ ")")
  else c.fail "minimum check only for numeric fields"

def checkMaximum (r : Rendering) (value schema : Json) (c : QJsonSchemaChecker) :
    QJsonSchemaChecker :=
  if value.isDouble then
    c.failIf (schema.toDouble 0 < value.toDouble 0)
      ("value is too large (maximum=" ++ r.double (schema.toDouble 0) ++ ")")
  else c.fail "maximum check only for numeric fields"

def checkMinItems (value schema : Json) (c : QJsonSchemaChecker) : QJsonSchemaChecker :=
  if value.isArray then
    c.failIf ((value.toArray.length : Int) < schema.toInt 0)
      ("array is too small (minimum=" ++ toString (schema.toInt 0) ++ ")")
  else c.fail "minItems only valid for arrays"

def checkMaxItems (value schema : Json) (c : QJsonSchemaChecker) : QJsonSchemaChecker :=
  if value.isArray then
    c.failIf (schema.toInt 0 < (value.toArray.length : Int))
      ("array is too large (maximum=" ++ toString (schema.toInt 0) ++ ")")
  else c.fail "maxItems only valid for arrays"

def equalPairs : List Json → Nat
  | [] => 0
  | item :: rest => rest.count item + equalPairs rest

def checkUniqueItems (value schema : Json) (c : QJsonSchemaChecker) : QJsonSchemaChecker :=
  if value.isArray then
    if schema.toBool false then
      (List.replicate (equalPairs value.toArray) "array must have unique values").foldl fail c
    else c
  else c.fail "uniqueItems only valid for arrays"

def checkEnum (r : Rendering) (value schema : Json) (c : QJsonSchemaChecker) :
    QJsonSchemaChecker :=
  c.failIf (!schema.toArray.contains value) ("Unknown enum value (allowed values are: " ++
    schema.toString "" ++ r.compact schema.toArray ++ ")")

def ignoredAttributes : List String :=
  ["required", "id", "title", "description", "default", "format", "defaultProperties",
    "propertyOrder", "append", "step", "access", "options", "script"]

/-- The members `additionalProperties` speaks of: an object is checked in place
of whatever a member holds. -/
def checkAdditionalProperties (value : QJsonObject) (schema : Json)
    (validateWith : Json → QJsonSchemaChecker → QJsonSchemaChecker)
    (ignoredProperties : List String) (c : QJsonSchemaChecker) : QJsonSchemaChecker :=
  (value.keys.filter fun property => !ignoredProperties.contains property).foldl
    (fun c property =>
      let c := c.push ("." ++ property)
      let c :=
        if schema.isBool then c.failIf (!schema.toBool false) "no schema definition"
        else validateWith (.object ((value.value property).elim [] Json.toObject)) c
      c.pop) c

/-- `validateWith` validates against the attribute's value as a schema. -/
def checkItems (items : List Json)
    (validateWith : Json → QJsonSchemaChecker → QJsonSchemaChecker) (c : QJsonSchemaChecker) :
    QJsonSchemaChecker :=
  items.zipIdx.foldl (fun c (item, i) =>
    (validateWith item (c.push ("[" ++ toString i ++ "]"))).pop) c

/-- The body of the loop over the attributes of a schema; the two continuations
are `validate` and `checkProperties` with the attribute's value as the schema. -/
def checkAttribute (r : Rendering) (value : Json) (schema : QJsonObject) (attributeName : String)
    (attributeValue : Json) (validateWith : Json → QJsonSchemaChecker → QJsonSchemaChecker)
    (checkPropertiesWith : QJsonObject → QJsonSchemaChecker → QJsonSchemaChecker)
    (c : QJsonSchemaChecker) : QJsonSchemaChecker :=
  if attributeName = "type" then c.checkType value attributeValue
  else if attributeName = "properties" then
    if value.isObject then checkPropertiesWith value.toObject c
    else c.fail "properties attribute is only valid for objects"
  else if attributeName = "additionalProperties" then
    if value.isObject then
      c.checkAdditionalProperties value.toObject attributeValue validateWith
        ((schema.value "properties").elim [] fun props => props.toObject.keys)
    else c.fail "additional properties attribute is only valid for objects"
  else if attributeName = "minimum" then c.checkMinimum r value attributeValue
  else if attributeName = "maximum" then c.checkMaximum r value attributeValue
  else if attributeName = "items" then
    if value.isArray then c.checkItems value.toArray validateWith
    else c.fail "items only valid for arrays"
  else if attributeName = "minItems" then c.checkMinItems value attributeValue
  else if attributeName = "maxItems" then c.checkMaxItems value attributeValue
  else if attributeName = "uniqueItems" then c.checkUniqueItems value attributeValue
  else if attributeName = "enum" then c.checkEnum r value attributeValue
  else if ignoredAttributes.contains attributeName then c
  else c.fail ("No check function defined for attribute " ++ attributeName)

def checkMissing (ignoreRequired : Bool) (propertyValue : Json) (c : QJsonSchemaChecker) :
    QJsonSchemaChecker :=
  c.failIf (((propertyValue.toObject.value "required").elim false (Json.toBool false)) &&
    !ignoreRequired) "missing member"

mutual

/-- The loop of `validate` over the attributes that are left. -/
def validateAttributes (r : Rendering) (ignoreRequired : Bool) (value : Json)
    (schema : QJsonObject) : QJsonObject → QJsonSchemaChecker → QJsonSchemaChecker
  | [], c => c
  | (attributeName, attributeValue) :: rest, c =>
    validateAttributes r ignoreRequired value schema rest
      (c.checkAttribute r value schema attributeName attributeValue
        (fun value => validateWith r ignoreRequired value attributeValue)
        (fun value => checkPropertiesWith r ignoreRequired value attributeValue))
termination_by structural attributes => attributes

/-- `validate(value, schema.toObject())` -/
def validateWith (r : Rendering) (ignoreRequired : Bool) (value : Json) :
    Json → QJsonSchemaChecker → QJsonSchemaChecker
  | .object schema, c => validateAttributes r ignoreRequired value schema schema c
  | .null, c | .bool _, c | .double _, c | .string _, c | .array _, c => c
termination_by structural schema => schema

/-- `checkProperties(value, schema.toObject())` -/
def checkPropertiesWith (r : Rendering) (ignoreRequired : Bool) (value : QJsonObject) :
    Json → QJsonSchemaChecker → QJsonSchemaChecker
  | .object schema, c => checkProperties r ignoreRequired value schema c
  | .null, c | .bool _, c | .double _, c | .string _, c | .array _, c => c
termination_by structural schema => schema

def checkProperties (r : Rendering) (ignoreRequired : Bool) (value : QJsonObject) :
    QJsonObject → QJsonSchemaChecker → QJsonSchemaChecker
  | [], c => c
  | (property, propertyValue) :: rest, c =>
    let c := c.push ("." ++ property)
    let c := match value.value property with
      | some member => validateWith r ignoreRequired member propertyValue c
      | none => c.checkMissing ignoreRequired propertyValue
    checkProperties r ignoreRequired value rest c.pop
termination_by structural properties => properties

end

/-- The state `validate` starts from. -/
def initial : QJsonSchemaChecker := { currentPath := ["[root]"] }

/-- The state after a validation of `value` against `schema`. -/
def run (r : Rendering) (schema value : QJsonObject) (ignoreRequired : Bool) :
    QJsonSchemaChecker :=
  validateAttributes r ignoreRequired (.object value) schema schema initial

def validate (r : Rendering) (schema value : QJsonObject) (ignoreRequired : Bool) : Bool :=
  !(run r schema value ignoreRequired).error

def getMessages (c : QJsonSchemaChecker) : List String := c.messages

end QJsonSchemaChecker

end HyperionNg
