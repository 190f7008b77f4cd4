import HyperionNg.AdjustmentCommands
import HyperionNg.EffectFiles
import HyperionNg.ImageCommands
import HyperionNg.JsonSchemas
import HyperionNg.Library.Dialogue
import HyperionNg.QJsonSchemaChecker

/-! The commands of the JSON server. A handler is a dialogue with the daemon:
it asks for what the command does and sends the replies. What it only reads of
the daemon it finds in a record; no handler reads what it has changed. -/

namespace HyperionNg

open Library

def QJsonObject.insert (object : QJsonObject) (key : String) (held : Json) : QJsonObject :=
  if object.contains key then
    object.map fun (name, other) => (name, if name = key then held else other)
  else object ++ [(key, held)]

namespace JsonCommands

structure JsonParseError where
  offset : Nat
  errorString : String

/-- The parts of Qt the commands use, and the random numbers. -/
structure Host where
  fromJson : String → Except JsonParseError Json
  readAll : String → Except String String
  fromBase64 : String → ImageData
  toUpper : String → String
  qrand : Nat → Nat
  rendering : Rendering

structure EffectEntry extends EffectDefinition where
  file : String
  args : QJsonObject

structure EffectSchema where
  pyFile : String
  schemaFile : String
  pySchema : QJsonObject

/-- What the handlers read: the getters of Hyperion, the files, and two flags of
the connection. -/
structure Daemon where
  getLedCount : Nat := 0
  getAdjustmentIds : List String := []
  getAdjustment : String → Option ColorAdjustment := fun _ => none
  getEffects : List EffectEntry := []
  getEffectSchemas : List EffectSchema := []
  getQJsonConfig : QJsonObject := []
  getConfigFileName : String := ""
  getConfigVersionId : Int := 0
  getJsonSlaves : List (String × Nat) := []
  files : FileSystem
  forwarderEnabled : Bool := true
  streamingLoggingActivated : Bool := false

inductive Stream
  | ledcolors
  | image
  | logging
deriving DecidableEq

/-- What a handler asks for, under the names of the calls. The slots of a stream
are connected or its timer is started by `start`; `setAdjustment` stands for the
assignments through the pointer `getAdjustment` returns, and `serverInfo` for the
collection of the `info` object. -/
inductive DaemonRequest
  | forward (slave : String × Nat) (message : QJsonObject)
  | setColors (priority : Int) (ledColors : List ColorRgb) (timeoutMs : Int)
      (component : Components)
  | processImage (width height : Int) (data : ImageData)
  | setEffect (effectName : String) (args : Option QJsonObject) (priority timeout : Int)
      (pythonScript : String)
  | clear (priority : Int)
  | clearall
  | setAdjustment (id : String) (adjustment : AdjustmentCommand)
  | adjustmentsUpdated
  | setSourceAutoSelectEnabled (enabled : Bool)
  | setCurrentSourcePriority (priority : Int)
  | writeJson (path : String) (tree : QJsonObject)
  | remove (path : String)
  | reloadEffects
  | serverInfo
  | readConfig (path : String)
  | getLedDeviceSchemas
  | freeObjects (emitCloseSignal : Bool)
  | restartHyperion
  | setComponentState (component : Components) (state : Bool)
  | streamReply (stream : Stream) (reply : QJsonObject)
  | start (stream : Stream)
  | stop (stream : Stream)
  | setLedMappingType (mappingType : Int)

def DaemonRequest.Answer : DaemonRequest → Type
  | processImage .. => List ColorRgb
  | setCurrentSourcePriority .. | remove .. => Bool
  | serverInfo | readConfig .. | getLedDeviceSchemas => QJsonObject
  | _ => Unit

abbrev Handling := Dialogue DaemonRequest.Answer QJsonObject Unit

def request (query : DaemonRequest) : Dialogue DaemonRequest.Answer QJsonObject query.Answer :=
  .call query

/-- The parts an `adjustment` object sets. -/
def adjustmentCommand (adjustment : QJsonObject) : AdjustmentCommand :=
  let channel := fun name => (adjustment.value name).map fun held =>
    let adjust := fun i : Nat => UInt8.ofInt (held.toArray[i]?.elim 0 (Json.toInt 0))
    (⟨adjust 0, adjust 1, adjust 2⟩ : RgbChannelAdjustment)
  let number := fun name => (adjustment.value name).map (Json.toDouble 0)
  { id := (adjustment.value "id").bind fun
      | .string id => some id
      | _ => none
    red := channel "red"
    green := channel "green"
    blue := channel "blue"
    cyan := channel "cyan"
    magenta := channel "magenta"
    yellow := channel "yellow"
    black := channel "black"
    white := channel "white"
    gammaRed := number "gammaRed"
    gammaGreen := number "gammaGreen"
    gammaBlue := number "gammaBlue"
    backlightThreshold := number "backlightThreshold"
    backlightColored := (adjustment.value "backlightColored").map (Json.toBool false)
    brightness := number "brightness" }

/-- Where a parser stopped, counted from 0; `width` is the number of units a
character takes up in the container. -/
def errorPosition (width : Char → Nat) (offset : Nat) (text : String) : Nat × Nat :=
  ((text.toList.flatMap fun c => List.replicate (width c) c).take offset).foldl
    (fun (line, column) c => if c = '\n' then (line + 1, 0) else (line, column + 1)) (0, 0)

/-- The units of a `QString`. -/
def utf16Size (c : Char) : Nat := if c.toNat < 0x10000 then 1 else 2

def parseMessage (heading : String) (width : Char → Nat) (error : JsonParseError)
    (text : String) : String :=
  let (errorLine, errorColumn) := errorPosition width error.offset text
  heading ++ error.errorString ++ " at Line: " ++ toString errorLine ++ ", Column: " ++
    toString errorColumn

def loadSchema (host : Host) (schemaResource : String) : Except String QJsonObject :=
  match JsonSchemas.resource schemaResource with
  | some schema => .ok schema
  | none =>
    match host.readAll schemaResource with
    | .error errorString => .error ("Schema error: " ++ errorString)
    | .ok schema =>
      match host.fromJson schema with
      | .error error => .error (parseMessage "Schema error: " Char.utf8Size error schema)
      | .ok doc => .ok doc.toObject

def checkJson (host : Host) (message : QJsonObject) (schemaResource : String) :
    Except String Unit := do
  let schema ← loadSchema host schemaResource
  let checker := QJsonSchemaChecker.run host.rendering schema message false
  if checker.error then
    .error ("\x7b" ++ String.join (checker.getMessages.map (· ++ " ")) ++ "\x7d")
  else .ok ()

def sendMessage (message : QJsonObject) : Handling := .emit message

def sendSuccessReply (command : String) (tan : Int) : Handling :=
  sendMessage [("command", .string command), ("success", .bool true), ("tan", .double tan)]

def sendErrorReply (error command : String) (tan : Int) : Handling :=
  sendMessage [("command", .string command), ("error", .string error), ("success", .bool false),
    ("tan", .double tan)]

/-- `message[key].toInt(defaultValue)`, and its siblings. -/
def intMember (message : QJsonObject) (key : String) (defaultValue : Int) : Int :=
  (message.value key).elim defaultValue (Json.toInt defaultValue)

def stringMember (message : QJsonObject) (key defaultValue : String) : String :=
  (message.value key).elim defaultValue (Json.toString defaultValue)

def boolMember (message : QJsonObject) (key : String) (defaultValue : Bool) : Bool :=
  (message.value key).elim defaultValue (Json.toBool defaultValue)

def objectMember (message : QJsonObject) (key : String) : QJsonObject :=
  (message.value key).elim [] Json.toObject

def arrayMember (message : QJsonObject) (key : String) : List Json :=
  (message.value key).elim [] Json.toArray

def forwardJsonMessage (d : Daemon) (message : QJsonObject) : Handling :=
  if d.forwarderEnabled then d.getJsonSlaves.forM fun slave => request (.forward slave message)
  else pure ()

/-- `memcpy(&data[i], data, n)` -/
def copyFront (data : List ColorRgb) (i n : Nat) : List ColorRgb :=
  data.take i ++ data.take n ++ data.drop (i + n)

/-- The loop that copies full blocks. `ledCount` rounds are enough for blocks
that are not empty, and no number of rounds for empty ones. -/
def copyBlocks (ledCount size : Nat) : Nat → Nat × List ColorRgb → Option (Nat × List ColorRgb)
  | 0, _ => none
  | rounds + 1, (i, data) =>
    if i + size < ledCount then copyBlocks ledCount size rounds (i + size, copyFront data i size)
    else some (i, data)

/-- The colours of the command, repeated over all LEDs; `none` where the loop
does not end. -/
def colorData (ledCount : Nat) (jsonColor : List Json) : Option (List ColorRgb) :=
  let component := fun i => UInt8.ofInt (jsonColor[i]?.elim 0 (Json.toInt 0))
  let size := min (jsonColor.length / 3) ledCount
  let first := (List.range size).map fun i =>
    (⟨component (3 * i), component (3 * i + 1), component (3 * i + 2)⟩ : ColorRgb)
  (copyBlocks ledCount size (ledCount + 1)
    (size, first ++ List.replicate (ledCount - size) ColorRgb.black)).map fun (i, data) =>
      if i < ledCount then copyFront data i (ledCount - i) else data

def handleColorCommand (d : Daemon) (message : QJsonObject) (command : String) (tan : Int) :
    Handling := do
  forwardJsonMessage d message
  match colorData d.getLedCount (arrayMember message "color") with
  | none => .lost
  | some colors =>
    let _ ← request (.setColors (intMember message "priority" 0) colors
      (intMember message "duration" (-1)) .color)
    sendSuccessReply command tan

def handleImageCommand (host : Host) (d : Daemon) (message : QJsonObject) (command : String)
    (tan : Int) : Handling := do
  forwardJsonMessage d message
  let width := intMember message "imagewidth" 0
  let height := intMember message "imageheight" 0
  let data := host.fromBase64 (stringMember message "imagedata" "")
  if JsonClientConnection.sizeMatches width height data then
    let ledColors ← request (.processImage width height data)
    let _ ← request (.setColors (intMember message "priority" 0) ledColors
      (intMember message "duration" (-1)) .invalid)
    sendSuccessReply command tan
  else sendErrorReply "Size of image data does not match with the width and height" command tan

def handleEffectCommand (d : Daemon) (message : QJsonObject) (command : String) (tan : Int) :
    Handling := do
  forwardJsonMessage d message
  let priority := intMember message "priority" 0
  let duration := intMember message "duration" (-1)
  let effect := objectMember message "effect"
  let effectName := stringMember effect "name" ""
  if effect.contains "args" then
    let _ ← request (.setEffect effectName (some (objectMember effect "args")) priority duration
      (stringMember message "pythonScript" ""))
    sendSuccessReply command tan
  else
    let _ ← request (.setEffect effectName none priority duration "")
    sendSuccessReply command tan

/-- `mid(0, 1) == ":"`, a file or a script of the resources -/
def isInternal (path : String) : Bool := path.toList.head? = some ':'

def schemaScript (script : String) : String :=
  if isInternal script then ":/effects//" ++ String.ofList (script.toList.drop 1) else script

/-- The text of a size check that never fails: `QString(message.size())` is one
character. -/
def sizeError (message : QJsonObject) : String :=
  "Error while parsing json: Message size " ++ String.singleton (Char.ofNat message.length)

/-- The file an effect is saved to; `none` for a name of an internal effect. -/
def newFileName (host : Host) (d : Daemon) (directory name : String) : Option String :=
  match d.getEffects.find? (·.name = name) with
  | some effect =>
    if isInternal (d.files.absoluteFilePath effect.file) then none else some effect.file
  | none => some (d.files.freeFile directory host.qrand 0
      (directory ++ "/" ++ String.ofList (name.toList.filter (· ≠ ' ')) ++ ".json"))

def saveEffect (host : Host) (d : Daemon) (message : QJsonObject) (directory command : String)
    (tan : Int) : Handling :=
  let name := stringMember message "name" ""
  let trimmed := QString.trimmed name.toList
  if trimmed = [] ∨ trimmed.head? = some '.' then
    sendErrorReply "Can't save new effect. Effect name is empty or begins with a dot." command tan
  else
    match newFileName host d directory name with
    | none => sendErrorReply ("The effect name '" ++ name ++
        "' is assigned to an internal effect. Please rename your effekt.") command tan
    | some file => do
      let effectJson : QJsonObject := [("args", .object (objectMember message "args")),
        ("name", .string name), ("script", .string (stringMember message "script" ""))]
      let _ ← request (.writeJson (d.files.absoluteFilePath file) effectJson)
      let _ ← request .reloadEffects
      sendSuccessReply command tan

def handleCreateEffectCommand (host : Host) (d : Daemon) (message : QJsonObject)
    (command : String) (tan : Int) : Handling :=
  if 0 < message.length then
    let args := objectMember message "args"
    if args.isEmpty then sendErrorReply "Missing or empty Object 'args'" command tan
    else
      let script := stringMember message "script" ""
      match d.getEffectSchemas.find? (·.pyFile = schemaScript script) with
      | none => sendErrorReply ("Missing schema file for Python script " ++ script) command tan
      | some schema =>
        match checkJson host args schema.schemaFile with
        | .error errors => sendErrorReply ("Error while validating json: " ++ errors) command tan
        | .ok () =>
          match arrayMember (objectMember d.getQJsonConfig "effects") "paths" with
          | [] => sendErrorReply "Can't save new effect. Effect path empty" command tan
          | directory :: _ => saveEffect host d message (directory.toString "") command tan
  else sendErrorReply (sizeError message) command tan

def handleDeleteEffectCommand (d : Daemon) (message : QJsonObject) (command : String)
    (tan : Int) : Handling :=
  if 0 < message.length then
    let effectName := stringMember message "name" ""
    match d.getEffects.find? (·.name = effectName) with
    | none => sendErrorReply ("Effect " ++ effectName ++ " not found") command tan
    | some effect =>
      let path := d.files.absoluteFilePath effect.file
      if isInternal path then
        sendErrorReply ("Can't delete internal effect: " ++ effectName) command tan
      else if d.files.fileExists effect.file then do
        let result : Bool ← request (.remove path)
        if result then
          let _ ← request .reloadEffects
          sendSuccessReply command tan
        else sendErrorReply ("Can't delete effect configuration file: " ++ path ++
          ". Please check permissions") command tan
      else sendErrorReply ("Can't find effect configuration file: " ++ path) command tan
  else sendErrorReply (sizeError message) command tan

def handleServerInfoCommand (command : String) (tan : Int) : Handling := do
  let info : QJsonObject ← request .serverInfo
  sendMessage [("command", .string command), ("info", .object info), ("success", .bool true),
    ("tan", .double tan)]

def handleClearCommand (d : Daemon) (message : QJsonObject) (command : String) (tan : Int) :
    Handling := do
  forwardJsonMessage d message
  let _ ← request (.clear (intMember message "priority" 0))
  sendSuccessReply command tan

def handleClearallCommand (d : Daemon) (message : QJsonObject) (command : String) (tan : Int) :
    Handling := do
  forwardJsonMessage d message
  let _ ← request .clearall
  sendSuccessReply command tan

/-- An identifier without adjustment is only logged. `front()` is taken even
where it is not needed. -/
def handleAdjustmentCommand (d : Daemon) (message : QJsonObject) (command : String) (tan : Int) :
    Handling :=
  let adjustment := objectMember message "adjustment"
  match d.getAdjustmentIds with
  | [] => .lost
  | front :: _ =>
    let adjustmentId := stringMember adjustment "id" front
    match d.getAdjustment adjustmentId with
    | none => pure ()
    | some _ => do
      let _ ← request (.setAdjustment adjustmentId (adjustmentCommand adjustment))
      let _ ← request .adjustmentsUpdated
      sendSuccessReply command tan

def handleSourceSelectCommand (message : QJsonObject) (command : String) (tan : Int) :
    Handling := do
  let success : Bool ←
    if boolMember message "auto" false then do
      let _ ← request (.setSourceAutoSelectEnabled true)
      pure true
    else if message.contains "priority" then
      request (.setCurrentSourcePriority (intMember message "priority" 0))
    else pure false
  if success then sendSuccessReply command tan
  else sendErrorReply "setting current priority failed" command tan

def handleConfigGetCommand (d : Daemon) (command : String) (tan : Int) : Handling := do
  let config : QJsonObject ← (request (.readConfig d.getConfigFileName)).catching fun _ =>
    pure d.getQJsonConfig
  sendMessage [("command", .string command), ("result", .object config), ("success", .bool true),
    ("tan", .double tan)]

def effectSchemaObject (schema : EffectSchema) : Json :=
  .object [("schemaContent", .object schema.pySchema),
    ("schemaLocation", .string schema.schemaFile), ("script", .string schema.pyFile)]

def pyEffectSchemas (schemas : List EffectSchema) : QJsonObject :=
  let internal := (schemas.filter (isInternal ·.pyFile)).map effectSchemaObject
  let external := (schemas.filter (!isInternal ·.pyFile)).map effectSchemaObject
  let held : QJsonObject := if internal.isEmpty then [] else [("internal", .array internal)]
  if external.isEmpty then held else held.insert "external" (.array external)

def handleSchemaGetCommand (host : Host) (d : Daemon) (command : String) (tan : Int) :
    Handling := do
  match host.readAll (":/hyperion-schema-" ++ toString d.getConfigVersionId) with
  | .error errorString => .throw ("Schema not found: " ++ errorString)
  | .ok schema =>
    match host.fromJson schema with
    | .error error => .throw (parseMessage "ERROR: Json schema wrong: " Char.utf8Size error schema)
    | .ok doc =>
      let alldevices : QJsonObject ← request .getLedDeviceSchemas
      let schemaJson := doc.toObject
      let properties := (objectMember schemaJson "properties").insert "alldevices"
        (.object alldevices)
      let properties := properties.insert "effectSchemas"
        (.object (pyEffectSchemas d.getEffectSchemas))
      sendMessage [("command", .string command),
        ("result", .object (schemaJson.insert "properties" (.object properties))),
        ("success", .bool true), ("tan", .double tan)]

def handleConfigCommand (host : Host) (d : Daemon) (message : QJsonObject) (command : String)
    (tan : Int) : Handling := do
  let subcommand := stringMember message "subcommand" ""
  let fullCommand := command ++ "-" ++ subcommand
  if subcommand = "getschema" then handleSchemaGetCommand host d fullCommand tan
  else if subcommand = "getconfig" then handleConfigGetCommand d fullCommand tan
  else if subcommand = "reload" then
    let _ ← request (.freeObjects true)
    let _ ← request .restartHyperion
    sendErrorReply "failed to restart hyperion" fullCommand tan
  else sendErrorReply "unknown or missing subcommand" fullCommand tan

def stringToComponent (host : Host) (component : String) : Components :=
  let component := host.toUpper component
  if component = "SMOOTHING" then .smoothing
  else if component = "BLACKBORDER" then .blackborder
  else if component = "KODICHECKER" then .kodichecker
  else if component = "FORWARDER" then .forwarder
  else if component = "UDPLISTENER" then .udplistener
  else if component = "BOBLIGHTSERVER" then .boblightserver
  else if component = "GRABBER" then .grabber
  else if component = "V4L" then .v4l
  else if component = "COLOR" then .color
  else if component = "EFFECT" then .effect
  else .invalid

def handleComponentStateCommand (host : Host) (message : QJsonObject) (command : String)
    (tan : Int) : Handling := do
  let componentState := objectMember message "componentstate"
  let component := stringToComponent host (stringMember componentState "component" "invalid")
  if component = .invalid then sendErrorReply "invalid component name" command tan
  else
    let _ ← request (.setComponentState component (boolMember componentState "state" true))
    sendSuccessReply command tan

def streamHeader (command : String) (tan : Int) : QJsonObject :=
  [("command", .string command), ("success", .bool true), ("tan", .double tan)]

def handleLedColorsCommand (message : QJsonObject) (command : String) (tan : Int) :
    Handling := do
  let subcommand := stringMember message "subcommand" ""
  if subcommand = "ledstream-start" then
    let _ ← request (.streamReply .ledcolors (streamHeader (command ++ "-ledstream-update") tan))
    let _ ← request (.start .ledcolors)
    sendSuccessReply (command ++ "-" ++ subcommand) tan
  else if subcommand = "ledstream-stop" then
    let _ ← request (.stop .ledcolors)
    sendSuccessReply (command ++ "-" ++ subcommand) tan
  else if subcommand = "imagestream-start" then
    let _ ← request (.streamReply .image (streamHeader (command ++ "-imagestream-update") tan))
    let _ ← request (.start .image)
    sendSuccessReply (command ++ "-" ++ subcommand) tan
  else if subcommand = "imagestream-stop" then
    let _ ← request (.stop .image)
    sendSuccessReply (command ++ "-" ++ subcommand) tan
  else sendErrorReply ("unknown subcommand \"" ++ subcommand ++ "\"") command tan

def handleLoggingCommand (d : Daemon) (message : QJsonObject) (command : String) (tan : Int) :
    Handling := do
  let subcommand := stringMember message "subcommand" ""
  let _ ← request (.streamReply .logging (streamHeader command tan))
  if subcommand = "start" then
    if d.streamingLoggingActivated then sendSuccessReply (command ++ "-" ++ subcommand) tan
    else
      let _ ← request (.streamReply .logging (streamHeader (command ++ "-update") tan))
      let _ ← request (.start .logging)
      sendSuccessReply (command ++ "-" ++ subcommand) tan
  else if subcommand = "stop" then
    if d.streamingLoggingActivated then
      let _ ← request (.stop .logging)
      sendSuccessReply (command ++ "-" ++ subcommand) tan
    else sendSuccessReply (command ++ "-" ++ subcommand) tan
  else sendErrorReply "unknown subcommand" command tan

def handleProcessingCommand (message : QJsonObject) (command : String) (tan : Int) :
    Handling := do
  let _ ← request (.setLedMappingType
    (ImageProcessor.mappingTypeToInt (stringMember message "mappingType" "multicolor_mean")))
  sendSuccessReply command tan

def handleNotImplemented : Handling := sendErrorReply "Command not implemented" "" 0

def handleCommand (host : Host) (d : Daemon) (message : QJsonObject) (command : String)
    (tan : Int) : Handling :=
  if command = "color" then handleColorCommand d message command tan
  else if command = "image" then handleImageCommand host d message command tan
  else if command = "effect" then handleEffectCommand d message command tan
  else if command = "create-effect" then handleCreateEffectCommand host d message command tan
  else if command = "delete-effect" then handleDeleteEffectCommand d message command tan
  else if command = "serverinfo" then handleServerInfoCommand command tan
  else if command = "clear" then handleClearCommand d message command tan
  else if command = "clearall" then handleClearallCommand d message command tan
  else if command = "adjustment" then handleAdjustmentCommand d message command tan
  else if command = "sourceselect" then handleSourceSelectCommand message command tan
  else if command = "config" then handleConfigCommand host d message command tan
  else if command = "componentstate" then handleComponentStateCommand host message command tan
  else if command = "ledcolors" then handleLedColorsCommand message command tan
  else if command = "logging" then handleLoggingCommand d message command tan
  else if command = "processing" then handleProcessingCommand message command tan
  else handleNotImplemented

/-- The two checks a message passes before its command is handled. -/
def checkMessage (host : Host) (message : QJsonObject) : Except String Unit := do
  checkJson host message ":schema"
  checkJson host message (":schema-" ++ stringMember message "command" "")

/-- No handler changes `errors`, which is empty when one throws. -/
def handleMessage (host : Host) (d : Daemon) (messageString : String) : Handling :=
  match host.fromJson messageString with
  | .error error =>
    sendErrorReply (parseMessage "Error while parsing json: " utf16Size error messageString) "" 0
  | .ok doc =>
    let message := doc.toObject
    match checkMessage host message with
    | .error errors => sendErrorReply ("Error while validating json: " ++ errors) "" 0
    | .ok () =>
      (handleCommand host d message (stringMember message "command" "")
        (intMember message "tan" 0)).catching fun what =>
          sendErrorReply ("Error while processing incoming json message: " ++ what ++ " ") "" 0

end JsonCommands

end HyperionNg
