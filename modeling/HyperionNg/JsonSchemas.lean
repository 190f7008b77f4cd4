import HyperionNg.Json

/-! The schemas the JSON server checks its messages with, compiled in as
resources. Members stand in the order of their keys, as Qt holds them. -/

namespace HyperionNg.JsonSchemas

def properties (members : QJsonObject) : String × Json := ("properties", .object members)

def enum (values : List String) : String × Json := ("enum", .array (values.map Json.string))

def minimum (bound : ℚ) : String × Json := ("minimum", .double bound)

def maximum (bound : ℚ) : String × Json := ("maximum", .double bound)

def minItems (bound : ℚ) : String × Json := ("minItems", .double bound)

def maxItems (bound : ℚ) : String × Json := ("maxItems", .double bound)

def items (schema : Json) : String × Json := ("items", schema)

def noOthers : String × Json := ("additionalProperties", .bool false)

/-- A schema that has no `required`. -/
def plain (type : String) (attributes : QJsonObject) : Json :=
  .object (attributes ++ [("type", .string type)])

def withRequired (flag : Bool) (type : String) (attributes : QJsonObject) : Json :=
  .object (attributes ++ [("required", .bool flag), ("type", .string type)])

def required : String → QJsonObject → Json := withRequired true

def optional : String → QJsonObject → Json := withRequired false

def ofCommand (flag : Bool) (members : QJsonObject) : QJsonObject :=
  [noOthers, properties members, ("required", .bool flag), ("type", .string "object")]

def command (name : String) : String × Json := ("command", required "string" [enum [name]])

def tan : String × Json := ("tan", plain "integer" [])

def priority (declare : String → QJsonObject → Json) (low high : ℚ) : String × Json :=
  ("priority", declare "integer" [maximum high, minimum low])

def duration : String × Json := ("duration", optional "integer" [])

def subcommand (names : List String) : String × Json :=
  ("subcommand", required "string" [enum names])

def base : QJsonObject :=
  [properties [("command", required "string" [enum ["color", "image", "effect", "create-effect",
      "delete-effect", "serverinfo", "clear", "clearall", "adjustment", "sourceselect", "config",
      "componentstate", "ledcolors", "logging", "processing"]])],
    ("required", .bool true), ("type", .string "object")]

def channel : Json :=
  optional "array" [items (plain "integer" [maximum 255, minimum 0]), maxItems 3, minItems 3]

def gamma : Json := optional "number" [maximum 100, minimum 0]

def fraction : Json := optional "number" [maximum 1, minimum 0]

def adjustment : QJsonObject :=
  ofCommand true [
    ("adjustment", required "object" [noOthers, properties [
      ("backlightColored", optional "boolean" []), ("backlightThreshold", fraction),
      ("black", channel), ("blue", channel), ("brightness", fraction), ("cyan", channel),
      ("gammaBlue", gamma), ("gammaGreen", gamma), ("gammaRed", gamma), ("green", channel),
      ("id", optional "string" []), ("magenta", channel), ("red", channel), ("white", channel),
      ("yellow", channel)]]),
    command "adjustment", tan]

def clear : QJsonObject := ofCommand true [command "clear", priority required 1 253, tan]

def clearall : QJsonObject := ofCommand true [command "clearall", tan]

def color : QJsonObject :=
  ofCommand true [("color", required "array" [items (plain "integer" []), minItems 3]),
    command "color", duration, priority required 1 253, tan]

/-- The checker knows no type `bool` and accepts every value. -/
def componentstate : QJsonObject :=
  ofCommand true [command "componentstate",
    ("componentstate", required "object" [noOthers, properties [
      ("component", required "string" [enum ["SMOOTHING", "BLACKBORDER", "KODICHECKER",
        "FORWARDER", "UDPLISTENER", "BOBLIGHTSERVER", "GRABBER", "V4L"]]),
      ("state", required "bool" [])]]),
    tan]

def config : QJsonObject :=
  ofCommand true [command "config", ("config", plain "object" []),
    subcommand ["getconfig", "getschema", "reload"], tan]

def createEffect : QJsonObject :=
  ofCommand true [("args", required "object" []), command "create-effect",
    ("name", required "string" []), ("script", required "string" []), tan]

def deleteEffect : QJsonObject :=
  ofCommand true [command "delete-effect", ("name", required "string" []), tan]

def effect : QJsonObject :=
  ofCommand true [command "effect", duration,
    ("effect", required "object" [noOthers, properties [
      ("args", optional "object" []), ("name", required "string" [])]]),
    priority required 1 253, ("pythonScript", optional "string" []), tan]

def image : QJsonObject :=
  ofCommand true [command "image", duration, ("imagedata", required "string" []),
    ("imageheight", required "integer" [minimum 0]),
    ("imagewidth", required "integer" [minimum 0]), priority required 1 253, tan]

def ledcolors : QJsonObject :=
  ofCommand true [command "ledcolors", ("interval", plain "integer" []),
    ("oneshot", plain "bool" []),
    subcommand ["ledstream-stop", "ledstream-start", "testled", "imagestream-start",
      "imagestream-stop"], tan]

def logging : QJsonObject :=
  ofCommand true [command "logging", ("interval", plain "integer" []),
    ("oneshot", plain "bool" []), subcommand ["stop", "start", "update"], tan]

def processing : QJsonObject :=
  ofCommand true [command "processing",
    ("mappingType", plain "string" [enum ["multicolor_mean", "unicolor_mean"]]), tan]

def serverinfo : QJsonObject := ofCommand true [command "serverinfo", tan]

def sourceselect : QJsonObject :=
  ofCommand false [("auto", plain "boolean" []), command "sourceselect", priority plain 0 255, tan]

/-- The resource a schema is compiled in as. -/
def resource (name : String) : Option QJsonObject :=
  [(":schema", base), (":schema-adjustment", adjustment), (":schema-clear", clear),
    (":schema-clearall", clearall), (":schema-color", color),
    (":schema-componentstate", componentstate), (":schema-config", config),
    (":schema-create-effect", createEffect), (":schema-delete-effect", deleteEffect),
    (":schema-effect", effect), (":schema-image", image), (":schema-ledcolors", ledcolors),
    (":schema-logging", logging), (":schema-processing", processing),
    (":schema-serverinfo", serverinfo), (":schema-sourceselect", sourceselect)].lookup name

end HyperionNg.JsonSchemas
