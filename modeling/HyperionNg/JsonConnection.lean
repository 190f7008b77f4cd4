import HyperionNg.JsonClientConnection
import HyperionNg.JsonReplies

/-! The connection of the remote control, and the commands it sends. The server
checks a command against its schemas, and each of them leaves some commands out
that the remote control can send. -/

namespace HyperionNg

open Library QJsonSchemaChecker JsonCommands

def QJsonObject.ofOptions (members : List (String × Option Json)) : QJsonObject :=
  members.filterMap fun (name, held) => held.map fun held => (name, held)

structure QImage where
  width : Nat
  scanLines : List (List ColorRgb)
  length_eq : ∀ line ∈ scanLines, line.length = width

/-- Between a command and the line end of its reply the connection reads;
`replies` are the texts taken for replies. -/
structure JsonConnection where
  reading : Bool := false
  serializedReply : List UInt8 := []
  replies : List (List UInt8) := []

namespace JsonConnection

/-- The first half of `sendMessage`, with the bytes that are written. -/
def sendMessage (qt : Qt) (c : JsonConnection) (message : QJsonObject) :
    JsonConnection × List UInt8 :=
  ({ c with reading := true }, qt.toJson message ++ [newline])

/-- One turn of the loop in `sendMessage`, which ends with a line end. -/
def readyRead (c : JsonConnection) (bytes : List UInt8) : JsonConnection :=
  let serializedReply := c.serializedReply ++ bytes
  if newline ∈ serializedReply then
    { reading := false, serializedReply := [], replies := c.replies ++ [serializedReply] }
  else { c with serializedReply }

/-- What `sendMessage` makes of a text. -/
def reply (host : Host) (fromUtf8 : List UInt8 → String) (serializedReply : List UInt8) :
    Except String QJsonObject :=
  match host.fromJson (fromUtf8 serializedReply) with
  | .ok doc => .ok doc.toObject
  | .error _ => .error "Error while parsing reply: invalid json"

/-- What `setAdjustment` is called with; a colour that is not valid is none. -/
structure Adjustment where
  adjustmentId : Option String := none
  redAdjustment : Option ColorRgb := none
  greenAdjustment : Option ColorRgb := none
  blueAdjustment : Option ColorRgb := none
  cyanAdjustment : Option ColorRgb := none
  magentaAdjustment : Option ColorRgb := none
  yellowAdjustment : Option ColorRgb := none
  whiteAdjustment : Option ColorRgb := none
  blackAdjustment : Option ColorRgb := none
  gammaR : Option ℚ := none
  gammaG : Option ℚ := none
  gammaB : Option ℚ := none
  backlightThreshold : Option ℚ := none
  backlightColored : Option Int := none
  brightness : Option ℚ := none

def command (name : String) : String × Option Json := ("command", some (.string name))

/-- Only a positive duration is sent. -/
def duration (duration : Int) : String × Option Json :=
  ("duration", if 0 < duration then some (.double duration) else none)

def priority (priority : Int) : String × Option Json := ("priority", some (.double priority))

def rgbValue (color : ColorRgb) : List Json :=
  [.double color.red.toNat, .double color.green.toNat, .double color.blue.toNat]

def arguments (host : Host) (heading text : String) : Except String (Option QJsonObject) :=
  if text = "" then .ok none
  else
    match host.fromJson text with
    | .error error => .error (parseMessage heading utf16Size error text)
    | .ok doc => .ok (some doc.toObject)

def setColor (colors : List ColorRgb) (p d : Int) : QJsonObject :=
  .ofOptions [("color", some (.array (colors.flatMap rgbValue))), command "color", duration d,
    priority p]

def setImage (toBase64 : List UInt8 → String) (image : QImage) (p d : Int) : QJsonObject :=
  let binaryImage :=
    image.scanLines.flatten.flatMap fun pixel => [pixel.red, pixel.green, pixel.blue]
  .ofOptions [command "image", duration d, ("imagedata", some (.string (toBase64 binaryImage))),
    ("imageheight", some (.double image.scanLines.length)),
    ("imagewidth", some (.double image.width)), priority p]

def setEffect (host : Host) (effectName effectArgs : String) (p d : Int) :
    Except String QJsonObject := do
  let args ← arguments host "Error in effect arguments: " effectArgs
  let effect :=
    QJsonObject.ofOptions [("args", args.map .object), ("name", some (.string effectName))]
  pure (.ofOptions [command "effect", duration d, ("effect", some (.object effect)), priority p])

def createEffect (host : Host) (effectName effectScript effectArgs : String) :
    Except String QJsonObject := do
  let args ← arguments host "Error in effect arguments: " effectArgs
  pure (.ofOptions [("args", args.map .object), command "create-effect",
    ("name", some (.string effectName)), ("script", some (.string effectScript))])

def deleteEffect (effectName : String) : QJsonObject :=
  .ofOptions [command "delete-effect", ("name", some (.string effectName))]

def getServerInfo : QJsonObject := .ofOptions [command "serverinfo"]

def clear (p : Int) : QJsonObject := .ofOptions [command "clear", priority p]

def clearAll : QJsonObject := .ofOptions [command "clearall"]

def setComponentState (component : String) (state : Bool) : QJsonObject :=
  let parameter := QJsonObject.ofOptions [("component", some (.string component)),
    ("state", some (.bool state))]
  .ofOptions [command "componentstate", ("componentstate", some (.object parameter))]

def setSource (p : Int) : QJsonObject := .ofOptions [command "sourceselect", priority p]

def setSourceAutoSelect : QJsonObject :=
  .ofOptions [("auto", some (.bool true)), command "sourceselect"]

/-- The type is `schema` or `config`. -/
def getConfig (schema : Bool) : QJsonObject :=
  let subcommand := if schema then "getschema" else "getconfig"
  .ofOptions [command "config", ("subcommand", some (.string subcommand))]

def setConfig (host : Host) (jsonString : String) : Except String QJsonObject := do
  let config ← arguments host "Error in configset arguments: " jsonString
  pure (.ofOptions [command "config", ("config", config.map .object),
    ("subcommand", some (.string "setconfig"))])

def setAdjustment (a : Adjustment) : QJsonObject :=
  let channel := fun color : Option ColorRgb => color.map fun color => Json.array (rgbValue color)
  let number := fun value : Option ℚ => value.map Json.double
  let adjust := QJsonObject.ofOptions [
    ("backlightColored", a.backlightColored.map fun colored => .bool (colored ≠ 0)),
    ("backlightThreshold", number a.backlightThreshold), ("black", channel a.blackAdjustment),
    ("blue", channel a.blueAdjustment), ("brightness", number a.brightness),
    ("cyan", channel a.cyanAdjustment), ("gammaBlue", number a.gammaB),
    ("gammaGreen", number a.gammaG), ("gammaRed", number a.gammaR),
    ("green", channel a.greenAdjustment), ("id", a.adjustmentId.map .string),
    ("magenta", channel a.magentaAdjustment), ("red", channel a.redAdjustment),
    ("white", channel a.whiteAdjustment), ("yellow", channel a.yellowAdjustment)]
  .ofOptions [("adjustment", some (.object adjust)), command "adjustment"]

def setLedMapping (mappingType : String) : QJsonObject :=
  .ofOptions [command "processing", ("mappingType", some (.string mappingType))]

inductive Call
  | setColor (colors : List ColorRgb) (priority duration : Int)
  | setImage (image : QImage) (priority duration : Int)
  | setEffect (effectName effectArgs : String) (priority duration : Int)
  | createEffect (effectName effectScript effectArgs : String)
  | deleteEffect (effectName : String)
  | getServerInfo
  | clear (priority : Int)
  | clearAll
  | setComponentState (component : String) (state : Bool)
  | setSource (priority : Int)
  | setSourceAutoSelect
  | getConfig (schema : Bool)
  | setConfig (jsonString : String)
  | setAdjustment (adjustment : Adjustment)
  | setLedMapping (mappingType : String)

/-- The command that is sent, unless the arguments are no JSON. -/
def Call.message (host : Host) (toBase64 : List UInt8 → String) : Call → Except String QJsonObject
  | .setColor colors p d => .ok (JsonConnection.setColor colors p d)
  | .setImage image p d => .ok (JsonConnection.setImage toBase64 image p d)
  | .setEffect name args p d => JsonConnection.setEffect host name args p d
  | .createEffect name script args => JsonConnection.createEffect host name script args
  | .deleteEffect name => .ok (JsonConnection.deleteEffect name)
  | .getServerInfo => .ok JsonConnection.getServerInfo
  | .clear p => .ok (JsonConnection.clear p)
  | .clearAll => .ok JsonConnection.clearAll
  | .setComponentState component state => .ok (JsonConnection.setComponentState component state)
  | .setSource p => .ok (JsonConnection.setSource p)
  | .setSourceAutoSelect => .ok JsonConnection.setSourceAutoSelect
  | .getConfig schema => .ok (JsonConnection.getConfig schema)
  | .setConfig jsonString => JsonConnection.setConfig host jsonString
  | .setAdjustment adjustment => .ok (JsonConnection.setAdjustment adjustment)
  | .setLedMapping mappingType => .ok (JsonConnection.setLedMapping mappingType)

/-- A reply without a success is thrown on. -/
def parseReply (reply : QJsonObject) : Except String Bool :=
  if boolMember reply "success" false then .ok true
  else .error ("Error: " ++ stringMember reply "error" "No error info")

end JsonConnection

end HyperionNg
