import HyperionNg.JsonConnection

/-! What the server makes of the commands of the remote control: which of them
its schemas let through, by the arguments of the call. -/

namespace HyperionNg

open Library QJsonSchemaChecker JsonCommands

namespace QJsonObject

theorem value_ofOptions {members : List (String × Option Json)}
    (distinct : (members.map Prod.fst).Nodup) (key : String) :
    (ofOptions members).value key = (members.lookup key).join := by
  induction members with
  | nil => rfl
  | cons member rest ih =>
    obtain ⟨name, held⟩ := member
    rw [List.map_cons, List.nodup_cons] at distinct
    have later := ih distinct.2
    by_cases same : key = name
    · subst same
      cases held with
      | some held => simp [ofOptions, value]
      | none =>
        have absent : rest.lookup key = none := by
          rw [List.lookup_eq_none_iff]
          intro member mem
          have other : key ≠ member.1 := by
            intro same
            have here : member.1 ∈ rest.map Prod.fst := List.mem_map_of_mem mem
            exact distinct.1 (same ▸ here)
          simpa using other
        rw [List.lookup_cons_self, Option.join_some]
        rw [absent] at later
        exact later
    · have differs : (key == name) = false := by simpa using same
      rw [List.lookup_cons, differs]
      cases held with
      | some held =>
        have head : ofOptions ((name, some held) :: rest) = (name, held) :: ofOptions rest := rfl
        rw [head, value_cons_of_ne same, later]
      | none => exact later

theorem mem_of_value_ofOptions {members : List (String × Option Json)} {key : String} {held : Json}
    (found : (ofOptions members).value key = some held) : key ∈ members.map Prod.fst := by
  obtain ⟨pair, mem, rfl⟩ := List.mem_map.mp (mem_keys_iff.mpr ⟨held, found⟩)
  obtain ⟨member, here, made⟩ := List.mem_filterMap.mp mem
  obtain ⟨held, -, rfl⟩ := Option.map_eq_some_iff.mp made
  exact List.mem_map_of_mem here

end QJsonObject

def closed (flag : Bool) (members : List (String × Schema)) : Schema :=
  [.additionalProperties false, .properties members, .required flag, .type .object]

def MemberHolds (schema : Schema) (held : Option Json) : Prop :=
  held.elim (isRequired schema = false) (schema.Holds .checker)

theorem propertiesHold_iff {r : Reading} {members : List (String × Schema)} {object : QJsonObject} :
    PropertiesHold r members object ↔ ∀ member ∈ members, ∀ held,
      object.value member.1 = some held → member.2.Holds r held := by
  induction members with
  | nil => simp [PropertiesHold]
  | cons member rest ih => simp [PropertiesHold, ih, Schema.Holds]

theorem closed_holds_iff (flag : Bool) {members : List (String × Schema)}
    {options : List (String × Option Json)} (distinct : (options.map Prod.fst).Nodup)
    (known : ∀ name ∈ options.map Prod.fst, name ∈ members.map Prod.fst) :
    (closed flag members).Holds .checker (.object (QJsonObject.ofOptions options)) ↔
      ∀ member ∈ members, MemberHolds member.2 (options.lookup member.1).join := by
  have value := QJsonObject.value_ofOptions distinct
  have all : ∀ property held, (QJsonObject.ofOptions options).value property = some held →
      property ∈ members.map Prod.fst := fun property held found =>
    known property (QJsonObject.mem_of_value_ofOptions found)
  have each : (∀ member ∈ members, MemberHolds member.2 (options.lookup member.1).join) ↔
      (∀ property schema, (property, schema) ∈ members → isRequired schema = true →
        ((QJsonObject.ofOptions options).value property).isSome) ∧
      PropertiesHold .checker members (QJsonObject.ofOptions options) := by
    rw [propertiesHold_iff]
    simp only [value]
    constructor
    · intro holds
      refine ⟨fun property schema mem required => ?_, fun member mem held found => ?_⟩
      · have here := holds _ mem
        cases found : (options.lookup property).join with
        | none =>
          rw [found] at here
          exact absurd (required.symm.trans here) nofun
        | some held => rfl
      · have here := holds _ mem
        rw [found] at here
        exact here
    · rintro ⟨present, holds⟩ member mem
      cases found : (options.lookup member.1).join with
      | none =>
        refine Bool.eq_false_of_not_eq_true fun required => ?_
        have some := present member.1 member.2 mem required
        rw [found] at some
        exact absurd some nofun
      | some held => exact holds member mem held found
  rw [each]
  constructor
  · rintro ⟨-, ⟨⟨-, present⟩, holds⟩, -⟩
    exact ⟨present, holds⟩
  · rintro ⟨present, holds⟩
    exact ⟨⟨rfl, fun _ => all⟩, ⟨⟨rfl, present⟩, holds⟩, trivial, rfl, trivial⟩

/-! The schemas of the commands the remote control knows. -/

namespace CommandSchema

def named (name : String) : Schema := [.enum [.string name], .required true, .type .string]

def integer : Schema := [.type .integer]

def optionalInteger : Schema := [.required false, .type .integer]

def channelNumber : Schema := [.maximum 253, .minimum 1, .required true, .type .integer]

def size : Schema := [.minimum 0, .required true, .type .integer]

def requiredString : Schema := [.required true, .type .string]

def optionalString : Schema := [.required false, .type .string]

def channel : Schema :=
  [.items [.maximum 255, .minimum 0, .type .integer], .maxItems 3, .minItems 3, .required false,
    .type .array]

def upTo (bound : ℚ) : Schema := [.maximum bound, .minimum 0, .required false, .type .number]

def oneOf (values : List String) : Schema :=
  [.enum (values.map .string), .required true, .type .string]

def commands : List String :=
  ["color", "image", "effect", "create-effect", "delete-effect", "serverinfo", "clear", "clearall",
    "adjustment", "sourceselect", "config", "componentstate", "ledcolors", "logging", "processing"]

def base : Schema :=
  [.properties [("command", oneOf commands)], .required true, .type .object]

def color : Schema :=
  closed true [("color", [.items integer, .minItems 3, .required true, .type .array]),
    ("command", named "color"), ("duration", optionalInteger), ("priority", channelNumber),
    ("tan", integer)]

def image : Schema :=
  closed true [("command", named "image"), ("duration", optionalInteger),
    ("imagedata", requiredString), ("imageheight", size), ("imagewidth", size),
    ("priority", channelNumber), ("tan", integer)]

def effectMember : Schema :=
  closed true [("args", [.required false, .type .object]), ("name", requiredString)]

def effect : Schema :=
  closed true [("command", named "effect"), ("duration", optionalInteger), ("effect", effectMember),
    ("priority", channelNumber), ("pythonScript", optionalString), ("tan", integer)]

def createEffect : Schema :=
  closed true [("args", [.required true, .type .object]), ("command", named "create-effect"),
    ("name", requiredString), ("script", requiredString), ("tan", integer)]

def deleteEffect : Schema :=
  closed true [("command", named "delete-effect"), ("name", requiredString), ("tan", integer)]

def serverinfo : Schema := closed true [("command", named "serverinfo"), ("tan", integer)]

def clear : Schema :=
  closed true [("command", named "clear"), ("priority", channelNumber), ("tan", integer)]

def clearall : Schema := closed true [("command", named "clearall"), ("tan", integer)]

def sourceselect : Schema :=
  closed false [("auto", [.type .boolean]), ("command", named "sourceselect"),
    ("priority", [.maximum 255, .minimum 0, .type .integer]), ("tan", integer)]

def config : Schema :=
  closed true [("command", named "config"), ("config", [.type .object]),
    ("subcommand", oneOf ["getconfig", "getschema", "reload"]), ("tan", integer)]

def adjustmentMember : Schema :=
  closed true [("backlightColored", [.required false, .type .boolean]),
    ("backlightThreshold", upTo 1), ("black", channel), ("blue", channel), ("brightness", upTo 1),
    ("cyan", channel), ("gammaBlue", upTo 100), ("gammaGreen", upTo 100), ("gammaRed", upTo 100),
    ("green", channel), ("id", optionalString), ("magenta", channel), ("red", channel),
    ("white", channel), ("yellow", channel)]

def adjustment : Schema :=
  closed true [("adjustment", adjustmentMember), ("command", named "adjustment"), ("tan", integer)]

def processing : Schema :=
  closed true [("command", named "processing"),
    ("mappingType", [.enum [.string "multicolor_mean", .string "unicolor_mean"], .type .string]),
    ("tan", integer)]

/-- The checker lets a type it does not know pass, as it does `any`. -/
def componentMember : Schema :=
  closed true [("component", oneOf ["SMOOTHING", "BLACKBORDER", "KODICHECKER", "FORWARDER",
    "UDPLISTENER", "BOBLIGHTSERVER", "GRABBER", "V4L"]), ("state", [.required true, .type .any])]

def componentstate : Schema :=
  closed true [("command", named "componentstate"), ("componentstate", componentMember),
    ("tan", integer)]

end CommandSchema

/-! The type of a component's state is none the checker knows. -/

def Unknown (type : String) : Prop := ∀ value, wrongType type value = false

private theorem unknown_bool : Unknown "bool" := fun value => by simp [wrongType]

private theorem unknown_any : Unknown "any" := fun value => by simp [wrongType]

def stateMember (type : String) : Json := JsonSchemas.required type []

def componentProperties (type : String) : QJsonObject :=
  [("component", JsonSchemas.required "string" [JsonSchemas.enum ["SMOOTHING", "BLACKBORDER",
    "KODICHECKER", "FORWARDER", "UDPLISTENER", "BOBLIGHTSERVER", "GRABBER", "V4L"]]),
    ("state", stateMember type)]

def componentObject (type : String) : Json :=
  JsonSchemas.required "object"
    [JsonSchemas.noOthers, JsonSchemas.properties (componentProperties type)]

def stateSchema (type : String) : QJsonObject :=
  JsonSchemas.ofCommand true [JsonSchemas.command "componentstate",
    ("componentstate", componentObject type), JsonSchemas.tan]

section Unknown

variable {type : String} (r : Rendering)

theorem validateWith_state (unknown : Unknown type) (value : Json) (c : QJsonSchemaChecker) :
    validateWith r false value (stateMember type) c = c := by
  have skip (c : QJsonSchemaChecker) : c.checkType value (.string type) = c := by
    simp [checkType, Json.toString, unknown value, failIf]
  simp [stateMember, JsonSchemas.required, JsonSchemas.withRequired, validateWith,
    validateAttributes, checkAttribute, ignoredAttributes, skip]

private theorem checkMissing_state (type : String) (c : QJsonSchemaChecker) :
    c.checkMissing false (stateMember type) = c.fail "missing member" := rfl

private theorem checkProperties_component (unknown : Unknown type) (value : QJsonObject)
    (c : QJsonSchemaChecker) :
    checkProperties r false value (componentProperties type) c =
      checkProperties r false value (componentProperties "any") c := by
  simp only [componentProperties, checkProperties, validateWith_state r unknown,
    validateWith_state r unknown_any, checkMissing_state]

private theorem keys_component (type : String) :
    (componentProperties type).keys = ["component", "state"] := rfl

theorem validateWith_component (unknown : Unknown type) (value : Json) (c : QJsonSchemaChecker) :
    validateWith r false value (componentObject type) c =
      validateWith r false value (componentObject "any") c := by
  simp [componentObject, JsonSchemas.required, JsonSchemas.withRequired, JsonSchemas.noOthers,
    JsonSchemas.properties, validateWith, validateAttributes, checkAttribute, checkPropertiesWith,
    checkProperties_component r unknown, QJsonObject.value, List.lookup_cons, Json.toObject,
    keys_component]

private theorem checkMissing_component (type : String) (c : QJsonSchemaChecker) :
    c.checkMissing false (componentObject type) = c.fail "missing member" := rfl

theorem run_stateSchema (unknown : Unknown type) (value : QJsonObject) :
    run r (stateSchema type) value false = run r (stateSchema "any") value false := by
  simp [run, stateSchema, JsonSchemas.ofCommand, JsonSchemas.noOthers, JsonSchemas.properties,
    validateWith, validateAttributes, checkAttribute, checkPropertiesWith, checkProperties,
    validateWith_component r unknown, checkMissing_component, QJsonObject.value, List.lookup_cons,
    Json.toObject, QJsonObject.keys]

end Unknown

section Accepted

open CommandSchema JsonConnection

theorem memberHolds_some (schema : Schema) (held : Json) :
    MemberHolds schema (some held) ↔ schema.Holds .checker held := Iff.rfl

private theorem memberHolds_none (schema : Schema) :
    MemberHolds schema none ↔ isRequired schema = false := Iff.rfl

theorem named_holds (name : String) : (named name).Holds .checker (.string name) := by
  simp [named, Schema.Holds, KeywordsHold, Keyword.Holds, Reading.checker,
    Keyword.Checked, Keyword.Demands, TypeName.Meets, Json.isString]

theorem requiredString_holds (s : String) : requiredString.Holds .checker (.string s) := by
  simp [requiredString, Schema.Holds, KeywordsHold, Keyword.Holds, Reading.checker,
    Keyword.Checked, Keyword.Demands, TypeName.Meets, Json.isString]

theorem optionalInteger_holds (d : Int) :
    MemberHolds optionalInteger (if 0 < d then some (.double d) else none) := by
  split_ifs
  · simp [MemberHolds, optionalInteger, Schema.Holds, KeywordsHold, Keyword.Holds, Reading.checker,
      Keyword.Checked, Keyword.Demands, Json.toDouble]
  · rfl

theorem integer_holds_none : MemberHolds integer none := rfl

theorem optionalString_holds (s : Option String) : MemberHolds optionalString (s.map .string) := by
  cases s with
  | none => rfl
  | some s =>
    simp [MemberHolds, optionalString, Schema.Holds, KeywordsHold, Keyword.Holds, Reading.checker,
      Keyword.Checked, Keyword.Demands, TypeName.Meets, Json.isString]

theorem channelNumber_holds_iff (p : Int) :
    channelNumber.Holds .checker (.double p) ↔ 1 ≤ p ∧ p ≤ 253 := by
  have low : ((1 : ℚ) ≤ (p : ℚ)) ↔ 1 ≤ p := by exact_mod_cast Iff.rfl
  have high : ((p : ℚ) ≤ 253) ↔ p ≤ 253 := by exact_mod_cast Iff.rfl
  simp [channelNumber, Schema.Holds, KeywordsHold, Keyword.Holds, Reading.checker,
    Keyword.Checked, Keyword.Demands, Json.toDouble, low, high, and_comm]

def Checks (name : String) (schema : Schema) : Prop :=
  ∀ (host : Host) (message : QJsonObject), checkJson host message name = .ok () ↔
    schema.Holds .checker (.object message)

theorem checks_of_resource {name : String} {resource : QJsonObject} {schema : Schema}
    (known : JsonSchemas.resource name = some resource)
    (same : ∀ r value, run r resource value false = run r (schemaToObject schema) value false) :
    Checks name schema := by
  intro host message
  rw [← validate_iff host.rendering schema message]
  have loaded : loadSchema host name = .ok resource := by simp [loadSchema, known]
  simp only [checkJson, loaded, bind, Except.bind, validate, same]
  cases (run host.rendering (schemaToObject schema) message false).error with
  | true => simp
  | false => simp

theorem checks_of_eq {name : String} {resource : QJsonObject} {schema : Schema}
    (known : JsonSchemas.resource name = some resource) (same : schemaToObject schema = resource) :
    Checks name schema :=
  checks_of_resource known fun r value => by rw [same]

theorem checks_base : Checks ":schema" base := checks_of_eq rfl rfl
theorem checks_color : Checks ":schema-color" color := checks_of_eq rfl rfl
theorem checks_image : Checks ":schema-image" image := checks_of_eq rfl rfl
theorem checks_effect : Checks ":schema-effect" effect := checks_of_eq rfl rfl
theorem checks_createEffect : Checks ":schema-create-effect" createEffect := checks_of_eq rfl rfl
theorem checks_deleteEffect : Checks ":schema-delete-effect" deleteEffect := checks_of_eq rfl rfl
theorem checks_serverinfo : Checks ":schema-serverinfo" serverinfo := checks_of_eq rfl rfl
private theorem checks_clear : Checks ":schema-clear" clear := checks_of_eq rfl rfl
private theorem checks_clearall : Checks ":schema-clearall" clearall := checks_of_eq rfl rfl
theorem checks_sourceselect : Checks ":schema-sourceselect" sourceselect := checks_of_eq rfl rfl
private theorem checks_config : Checks ":schema-config" config := checks_of_eq rfl rfl
private theorem checks_adjustment : Checks ":schema-adjustment" adjustment := checks_of_eq rfl rfl
private theorem checks_processing : Checks ":schema-processing" processing := checks_of_eq rfl rfl

private theorem checks_componentstate : Checks ":schema-componentstate" componentstate := by
  have known : JsonSchemas.resource ":schema-componentstate" = some (stateSchema "bool") := rfl
  exact checks_of_resource known fun r value => run_stateSchema r unknown_bool value

theorem checkMessage_iff {host : Host} {message : QJsonObject} {name resource : String}
    {schema : Schema} (checks : Checks resource schema) (same : ":schema-" ++ name = resource)
    (command : message.value "command" = some (.string name)) (known : name ∈ commands) :
    checkMessage host message = .ok () ↔ schema.Holds .checker (.object message) := by
  have first : checkJson host message ":schema" = .ok () := by
    rw [checks_base]
    have found : (Json.string name) ∈ commands.map Json.string := List.mem_map_of_mem known
    have required : (message.value "command").isSome = true := by rw [command]; rfl
    refine ⟨⟨⟨rfl, ?_⟩, ?_, trivial⟩, trivial, rfl, trivial⟩
    · intro property schema mem _
      obtain ⟨rfl, -⟩ := Prod.mk.inj (List.mem_singleton.mp mem)
      exact required
    · intro held here
      obtain rfl := Option.some.inj (command.symm.trans here)
      exact ⟨found, trivial, rfl, trivial⟩
  have member : stringMember message "command" "" = name := by
    rw [stringMember, command, Option.elim_some, Json.toString]
  rw [checkMessage, first, member, same]
  exact checks host message

def Accepted : Call → Prop
  | .setColor colors p _ => (1 ≤ p ∧ p ≤ 253) ∧ colors ≠ []
  | .setImage _ p _ | .setEffect _ _ p _ | .clear p => 1 ≤ p ∧ p ≤ 253
  | .createEffect _ _ args => args ≠ ""
  | .setComponentState component _ => component ∈ ["SMOOTHING", "BLACKBORDER", "KODICHECKER",
      "FORWARDER", "UDPLISTENER", "BOBLIGHTSERVER", "GRABBER", "V4L"]
  | .setSource p => 0 ≤ p ∧ p ≤ 255
  | .setConfig _ => False
  | .setAdjustment a =>
    (∀ gamma ∈ [a.gammaR, a.gammaG, a.gammaB], ∀ x ∈ gamma, 0 ≤ x ∧ x ≤ 100) ∧
      ∀ part ∈ [a.backlightThreshold, a.brightness], ∀ x ∈ part, 0 ≤ x ∧ x ≤ 1
  | .setLedMapping mappingType => mappingType ∈ ["multicolor_mean", "unicolor_mean"]
  | .deleteEffect _ | .getServerInfo | .clearAll | .setSourceAutoSelect | .getConfig _ => True

theorem color_holds_iff (colors : List ColorRgb) (p d : Int) :
    color.Holds .checker (.object (setColor colors p d)) ↔ (1 ≤ p ∧ p ≤ 253) ∧ colors ≠ [] := by
  have items : ∀ item ∈ colors.flatMap rgbValue, (item.toDouble 0).den = 1 := by
    intro item mem
    obtain ⟨c, -, here⟩ := List.mem_flatMap.mp mem
    simp only [rgbValue, List.mem_cons, List.not_mem_nil, or_false] at here
    rcases here with rfl | rfl | rfl <;> simp [Json.toDouble]
  have length : (colors.flatMap rgbValue).length = 3 * colors.length := by
    simp [List.length_flatMap, rgbValue, Nat.mul_comm]
  have three : (Json.double 3).toInt 0 = 3 := rfl
  have size : (3 : Int) ≤ ((colors.flatMap rgbValue).length : Int) ↔ colors ≠ [] := by
    rw [length, ← List.length_pos_iff]
    omega
  have array : Schema.Holds .checker [.items integer, .minItems 3, .required true, .type .array]
      (.array (colors.flatMap rgbValue)) ↔ colors ≠ [] := by
    rw [← size]
    constructor
    · rintro ⟨-, ⟨-, enough⟩, -⟩
      exact enough
    · intro enough
      exact ⟨⟨rfl, fun item mem => ⟨items item mem, trivial⟩⟩, ⟨rfl, enough⟩, trivial, rfl, trivial⟩
  rw [color, setColor, command, duration, priority, closed_holds_iff true (by simp) (by simp)]
  simp [List.lookup_cons, memberHolds_some, named_holds, optionalInteger_holds, integer_holds_none,
    channelNumber_holds_iff, array, and_comm]

theorem image_holds_iff (toBase64 : List UInt8 → String) (image : QImage) (p d : Int) :
    CommandSchema.image.Holds .checker (.object (setImage toBase64 image p d)) ↔
      1 ≤ p ∧ p ≤ 253 := by
  have natural (n : Nat) : size.Holds .checker (.double n) := by
    simp [size, Schema.Holds, KeywordsHold, Keyword.Holds, Reading.checker, Keyword.Checked,
      Keyword.Demands, Json.toDouble]
  rw [CommandSchema.image, setImage, command, duration, priority,
    closed_holds_iff true (by simp) (by simp)]
  simp [List.lookup_cons, memberHolds_some, named_holds, optionalInteger_holds, integer_holds_none,
    channelNumber_holds_iff, requiredString_holds, natural]

private theorem object_holds (flag : Bool) (object : QJsonObject) :
    Schema.Holds .checker [.required flag, .type .object] (.object object) := by
  simp [Schema.Holds, KeywordsHold, Keyword.Holds, Reading.checker, Keyword.Checked,
    Keyword.Demands, TypeName.Meets, Json.isObject]

theorem effect_holds_iff (args : Option QJsonObject) (name : String) (p d : Int) :
    effect.Holds .checker (.object (QJsonObject.ofOptions [command "effect", duration d,
      ("effect", some (.object (QJsonObject.ofOptions
        [("args", args.map .object), ("name", some (.string name))]))),
      priority p])) ↔ 1 ≤ p ∧ p ≤ 253 := by
  have inner : effectMember.Holds .checker (.object (QJsonObject.ofOptions
      [("args", args.map .object), ("name", some (.string name))])) := by
    rw [effectMember, closed_holds_iff true (by simp) (by simp)]
    cases args with
    | none => simp [List.lookup_cons, memberHolds_some, memberHolds_none, isRequired,
      requiredString_holds]
    | some object => simp [List.lookup_cons, memberHolds_some, object_holds, requiredString_holds]
  rw [effect, command, duration, priority, closed_holds_iff true (by simp) (by simp)]
  have script : MemberHolds optionalString none := optionalString_holds none
  simp [List.lookup_cons, memberHolds_some, named_holds, optionalInteger_holds, integer_holds_none,
    channelNumber_holds_iff, inner, script]

theorem createEffect_holds_iff (args : Option QJsonObject) (name script : String) :
    CommandSchema.createEffect.Holds .checker (.object (QJsonObject.ofOptions
      [("args", args.map .object), command "create-effect", ("name", some (.string name)),
        ("script", some (.string script))])) ↔ args.isSome := by
  rw [CommandSchema.createEffect, command, closed_holds_iff true (by simp) (by simp)]
  cases args with
  | none => simp [List.lookup_cons, memberHolds_none, isRequired]
  | some object =>
    simp [List.lookup_cons, memberHolds_some, named_holds, integer_holds_none, requiredString_holds,
      object_holds]

private theorem deleteEffect_holds (name : String) :
    CommandSchema.deleteEffect.Holds .checker (.object (JsonConnection.deleteEffect name)) := by
  rw [CommandSchema.deleteEffect, JsonConnection.deleteEffect, command,
    closed_holds_iff true (by simp) (by simp)]
  simp [List.lookup_cons, memberHolds_some, named_holds, integer_holds_none, requiredString_holds]

private theorem serverinfo_holds : serverinfo.Holds .checker (.object getServerInfo) := by
  rw [serverinfo, getServerInfo, command, closed_holds_iff true (by simp) (by simp)]
  simp [List.lookup_cons, memberHolds_some, named_holds, integer_holds_none]

theorem clear_holds_iff (p : Int) :
    CommandSchema.clear.Holds .checker (.object (JsonConnection.clear p)) ↔ 1 ≤ p ∧ p ≤ 253 := by
  rw [CommandSchema.clear, JsonConnection.clear, command, priority,
    closed_holds_iff true (by simp) (by simp)]
  simp [List.lookup_cons, memberHolds_some, named_holds, integer_holds_none,
    channelNumber_holds_iff]

private theorem clearall_holds : clearall.Holds .checker (.object clearAll) := by
  rw [clearall, clearAll, command, closed_holds_iff true (by simp) (by simp)]
  simp [List.lookup_cons, memberHolds_some, named_holds, integer_holds_none]

theorem oneOf_holds_iff (values : List String) (s : String) :
    (oneOf values).Holds .checker (.string s) ↔ s ∈ values := by
  simp [oneOf, Schema.Holds, KeywordsHold, Keyword.Holds, Reading.checker, Keyword.Checked,
    Keyword.Demands, TypeName.Meets, Json.isString]

theorem componentstate_holds_iff (component : String) (state : Bool) :
    componentstate.Holds .checker (.object (setComponentState component state)) ↔
      component ∈ ["SMOOTHING", "BLACKBORDER", "KODICHECKER", "FORWARDER", "UDPLISTENER",
        "BOBLIGHTSERVER", "GRABBER", "V4L"] := by
  have any : Schema.Holds .checker [.required true, .type .any] (.bool state) :=
    ⟨trivial, trivial, trivial⟩
  have inner : componentMember.Holds .checker (.object (QJsonObject.ofOptions
      [("component", some (.string component)), ("state", some (.bool state))])) ↔
        component ∈ ["SMOOTHING", "BLACKBORDER", "KODICHECKER", "FORWARDER", "UDPLISTENER",
          "BOBLIGHTSERVER", "GRABBER", "V4L"] := by
    rw [componentMember, closed_holds_iff true (by simp) (by simp)]
    simp only [List.forall_mem_cons, List.lookup_cons, beq_self_eq_true, Option.join_some,
      memberHolds_some, oneOf_holds_iff, List.not_mem_nil, false_implies, implies_true, and_true]
    exact and_iff_left any
  rw [componentstate, setComponentState, command,
    closed_holds_iff true (by simp) (by simp), ← inner]
  simp [List.lookup_cons, memberHolds_some, named_holds, integer_holds_none]

theorem sourceselect_holds_iff (auto : Option Bool) (p : Option Int) :
    sourceselect.Holds .checker (.object (QJsonObject.ofOptions [("auto", auto.map .bool),
      command "sourceselect", ("priority", p.map fun p : Int => .double p)])) ↔
        ∀ x ∈ p, 0 ≤ x ∧ x ≤ 255 := by
  have flag : MemberHolds [.type .boolean] (auto.map .bool) := by
    cases auto with
    | none => rfl
    | some flag => exact ⟨rfl, trivial⟩
  have number : MemberHolds [.maximum 255, .minimum 0, .type .integer]
      (p.map fun p : Int => Json.double p) ↔ ∀ x ∈ p, 0 ≤ x ∧ x ≤ 255 := by
    cases p with
    | none => simp [MemberHolds, isRequired]
    | some p =>
      have high : ((p : ℚ) ≤ 255) ↔ p ≤ 255 := by exact_mod_cast Iff.rfl
      simp [MemberHolds, Schema.Holds, KeywordsHold, Keyword.Holds, Reading.checker,
        Keyword.Checked, Keyword.Demands, Json.toDouble, high, and_comm]
  rw [sourceselect, command, closed_holds_iff false (by simp) (by simp)]
  simp [List.lookup_cons, memberHolds_some, named_holds, integer_holds_none, flag, number]

theorem config_holds_iff (object : Option QJsonObject) (subcommand : String) :
    config.Holds .checker (.object (QJsonObject.ofOptions [command "config",
      ("config", object.map .object), ("subcommand", some (.string subcommand))])) ↔
        subcommand ∈ ["getconfig", "getschema", "reload"] := by
  have held : MemberHolds [.type .object] (object.map .object) := by
    cases object with
    | none => rfl
    | some object => exact ⟨rfl, trivial⟩
  rw [config, command, closed_holds_iff true (by simp) (by simp)]
  simp [List.lookup_cons, memberHolds_some, named_holds, integer_holds_none, held, oneOf_holds_iff]

theorem processing_holds_iff (mappingType : String) :
    processing.Holds .checker (.object (setLedMapping mappingType)) ↔
      mappingType ∈ ["multicolor_mean", "unicolor_mean"] := by
  have held : Schema.Holds .checker
      [.enum [.string "multicolor_mean", .string "unicolor_mean"], .type .string]
      (.string mappingType) ↔ mappingType ∈ ["multicolor_mean", "unicolor_mean"] := by
    simp [Schema.Holds, KeywordsHold, Keyword.Holds, Reading.checker, Keyword.Checked,
      Keyword.Demands, TypeName.Meets, Json.isString]
  rw [processing, setLedMapping, command, closed_holds_iff true (by simp) (by simp), ← held]
  simp [List.lookup_cons, memberHolds_some, named_holds, integer_holds_none]

theorem channel_holds (color : Option ColorRgb) :
    MemberHolds channel (color.map fun color => .array (rgbValue color)) := by
  cases color with
  | none => rfl
  | some color =>
    have low (c : UInt8) : (0 : ℚ) ≤ (c.toNat : ℚ) := by positivity
    have high (c : UInt8) : (c.toNat : ℚ) ≤ 255 := by
      exact_mod_cast Nat.le_of_lt_succ c.toNat_lt
    have three : (Json.double 3).toInt 0 = 3 := rfl
    simp [MemberHolds, channel, Schema.Holds, KeywordsHold, Keyword.Holds, Reading.checker,
      Keyword.Checked, Keyword.Demands, TypeName.Meets, Json.isArray, Json.toArray, rgbValue,
      Json.toDouble, high, three]

theorem upTo_holds_iff (bound : ℚ) (value : Option ℚ) :
    MemberHolds (upTo bound) (value.map .double) ↔ ∀ x ∈ value, 0 ≤ x ∧ x ≤ bound := by
  cases value with
  | none => simp [MemberHolds, upTo, isRequired]
  | some value =>
    simp [MemberHolds, upTo, Schema.Holds, KeywordsHold, Keyword.Holds, Reading.checker,
      Keyword.Checked, Keyword.Demands, TypeName.Meets, Json.isDouble, and_comm]

theorem adjustment_holds_iff (a : Adjustment) :
    adjustment.Holds .checker (.object (setAdjustment a)) ↔
      (∀ gamma ∈ [a.gammaR, a.gammaG, a.gammaB], ∀ x ∈ gamma, 0 ≤ x ∧ x ≤ 100) ∧
        ∀ part ∈ [a.backlightThreshold, a.brightness], ∀ x ∈ part, 0 ≤ x ∧ x ≤ 1 := by
  have flag : MemberHolds [.required false, .type .boolean]
      (a.backlightColored.map fun colored => .bool !decide (colored = 0)) := by
    cases a.backlightColored with
    | none => rfl
    | some colored => exact ⟨trivial, rfl, trivial⟩
  rw [adjustment, setAdjustment, command, closed_holds_iff true (by simp) (by simp)]
  simp only [List.forall_mem_cons, List.lookup_cons, beq_self_eq_true, Option.join_some,
    memberHolds_some, List.not_mem_nil, false_implies, implies_true, and_true]
  rw [adjustmentMember, closed_holds_iff true (by simp) (by simp)]
  simp [List.lookup_cons, memberHolds_some, named_holds, integer_holds_none, flag, channel_holds,
    upTo_holds_iff, optionalString_holds]
  tauto

theorem isSome_arguments {host : Host} {heading text : String} {args : Option QJsonObject}
    (read : arguments host heading text = .ok args) : args.isSome ↔ text ≠ "" := by
  rw [arguments] at read
  split_ifs at read with none
  · obtain rfl := Except.ok.inj read
    simp [none]
  · cases parsed : host.fromJson text with
    | error error => simp [parsed] at read
    | ok doc =>
      rw [parsed] at read
      obtain rfl := Except.ok.inj read
      simp [none]

/-- The server's schemas let a command of the remote control through exactly
for these arguments of the call. -/
theorem accepted_iff {host : Host} {toBase64 : List UInt8 → String} {call : Call}
    {message : QJsonObject} (sent : call.message host toBase64 = .ok message) :
    checkMessage host message = .ok () ↔ Accepted call := by
  cases call with
  | setColor colors p d =>
    obtain rfl := Except.ok.inj sent
    rw [checkMessage_iff checks_color rfl (by rfl) (by decide)]
    exact color_holds_iff colors p d
  | setImage image p d =>
    obtain rfl := Except.ok.inj sent
    rw [checkMessage_iff checks_image rfl (by rfl) (by decide)]
    exact image_holds_iff toBase64 image p d
  | setEffect name args p d =>
    obtain ⟨object, -, sent⟩ := Execution.bind_eq_ok.mp sent
    obtain rfl := Except.ok.inj sent
    rw [checkMessage_iff checks_effect rfl (by rfl) (by decide)]
    exact effect_holds_iff object name p d
  | createEffect name script args =>
    obtain ⟨object, read, sent⟩ := Execution.bind_eq_ok.mp sent
    obtain rfl := Except.ok.inj sent
    rw [checkMessage_iff checks_createEffect rfl (by cases object <;> rfl) (by decide),
      createEffect_holds_iff]
    exact isSome_arguments read
  | deleteEffect name =>
    obtain rfl := Except.ok.inj sent
    rw [checkMessage_iff checks_deleteEffect rfl (by rfl) (by decide)]
    exact iff_of_true (deleteEffect_holds name) trivial
  | getServerInfo =>
    obtain rfl := Except.ok.inj sent
    rw [checkMessage_iff checks_serverinfo rfl (by rfl) (by decide)]
    exact iff_of_true serverinfo_holds trivial
  | clear p =>
    obtain rfl := Except.ok.inj sent
    rw [checkMessage_iff checks_clear rfl (by rfl) (by decide)]
    exact clear_holds_iff p
  | clearAll =>
    obtain rfl := Except.ok.inj sent
    rw [checkMessage_iff checks_clearall rfl (by rfl) (by decide)]
    exact iff_of_true clearall_holds trivial
  | setComponentState component state =>
    obtain rfl := Except.ok.inj sent
    rw [checkMessage_iff checks_componentstate rfl (by rfl) (by decide)]
    exact componentstate_holds_iff component state
  | setSource p =>
    obtain rfl := Except.ok.inj sent
    rw [checkMessage_iff checks_sourceselect rfl (by rfl) (by decide)]
    have held : sourceselect.Holds .checker (.object (setSource p)) ↔
        ∀ x ∈ some p, 0 ≤ x ∧ x ≤ 255 :=
      sourceselect_holds_iff none (some p)
    simpa [Accepted] using held
  | setSourceAutoSelect =>
    obtain rfl := Except.ok.inj sent
    rw [checkMessage_iff checks_sourceselect rfl (by rfl) (by decide)]
    have held := sourceselect_holds_iff (some true) none
    exact iff_of_true (held.mpr nofun) trivial
  | getConfig schema =>
    obtain rfl := Except.ok.inj sent
    rw [checkMessage_iff checks_config rfl (by rfl) (by decide)]
    have held := config_holds_iff none (if schema then "getschema" else "getconfig")
    exact iff_of_true (held.mpr (by split_ifs <;> simp)) trivial
  | setConfig jsonString =>
    obtain ⟨object, -, sent⟩ := Execution.bind_eq_ok.mp sent
    obtain rfl := Except.ok.inj sent
    rw [checkMessage_iff checks_config rfl (by cases object <;> rfl) (by decide), config_holds_iff]
    exact iff_of_false (by decide) id
  | setAdjustment a =>
    obtain rfl := Except.ok.inj sent
    rw [checkMessage_iff checks_adjustment rfl (by rfl) (by decide)]
    exact adjustment_holds_iff a
  | setLedMapping mappingType =>
    obtain rfl := Except.ok.inj sent
    rw [checkMessage_iff checks_processing rfl (by rfl) (by decide)]
    exact processing_holds_iff mappingType

theorem color_accepted_config_not :
    let host := Host.ofMessage "\x7b\x7d" (.object [])
    (checkMessage host (JsonConnection.setColor [⟨255, 0, 0⟩] 50 0) = .ok () ↔
        Accepted (.setColor [⟨255, 0, 0⟩] 50 0)) ∧
      (checkMessage host (QJsonObject.ofOptions [command "config", ("config", some (.object [])),
          ("subcommand", some (.string "setconfig"))]) = .ok () ↔
        Accepted (.setConfig "\x7b\x7d")) :=
  ⟨@accepted_iff _ (fun _ => "") _ _ rfl, @accepted_iff _ (fun _ => "") _ _ (by rfl)⟩

end Accepted

end HyperionNg
