import HyperionNg.JsonCommands
import HyperionNg.StaticFileServing

/-! Configuration files: how they are written and read, and the command of the
web interface that saves one. A file is taken by its text. -/

namespace HyperionNg

open JsonCommands

/-- The parts of Qt used; `toJson` gives the indented form. -/
structure QJsonDocument where
  fromJson : String → Except JsonParseError Json
  toJson : QJsonObject → String
  fromPercentEncoding : String → String

structure Disk where
  text : String → Option String
  canRead : String → Bool
  canWrite : String → Bool
  errorString : String → String

def Disk.readAll (disk : Disk) (path : String) : Except String String :=
  match disk.text path with
  | some text => if disk.canRead path then .ok text else .error (disk.errorString path)
  | none => .error (disk.errorString path)

namespace QJsonFactory

def startsComment (c : Char) (rest : List Char) : Bool :=
  (c ≠ ':' && ['/', '/'].isPrefixOf rest) || ['/', '/'].isPrefixOf (c :: rest)

def removeFrom : (matched : Bool) → List Char → List Char
  | _, [] => []
  | matched, c :: rest =>
    if matched && c ≠ '\n' then removeFrom true rest
    else if startsComment c rest then removeFrom true rest
    else c :: removeFrom false rest

/-- `config.remove(QRegularExpression("([^:]?\\/\\/.*)"))` -/
def removeComments (config : String) : String := String.ofList (removeFrom false config.toList)

def readConfig (qt : QJsonDocument) (disk : Disk) (path : String) : Except String QJsonObject :=
  match disk.readAll path with
  | .error errorString =>
    .error ("Configuration file not found: '" ++ path ++ "' (" ++ errorString ++ ")")
  | .ok text =>
    -- a string made of bytes ends at the first null
    let config := removeComments (String.ofList (cStr text))
    match qt.fromJson config with
    | .error error => .error (parseMessage "Failed to parse configuration: " utf16Size error config)
    | .ok doc => .ok doc.toObject

def readSchema (qt : QJsonDocument) (disk : Disk) (path : String) : Except String QJsonObject :=
  match disk.readAll path with
  | .error errorString => .error ("Schema not found: '" ++ path ++ "' (" ++ errorString ++ ")")
  | .ok schema =>
    match qt.fromJson schema with
    | .error error => .error (parseMessage "ERROR: Json schema wrong: " Char.utf8Size error schema)
    | .ok doc => .ok doc.toObject

def load (qt : QJsonDocument) (r : Rendering) (disk : Disk) (schema config : String)
    (json : QJsonObject) : Except String (List String × Int × QJsonObject) := do
  let schemaTree ← readSchema qt disk schema
  let configTree ← readConfig qt disk config
  let messages := (QJsonSchemaChecker.run r schemaTree configTree false).getMessages
  if QJsonSchemaChecker.validate r schemaTree configTree false then pure (messages, 0, configTree)
  else pure (messages ++ ["Validation failed for configuration file: " ++ config], -3, json)

/-- Nothing is written to a file that does not open. -/
def writeJson (qt : QJsonDocument) (filename : String) (jsonTree : QJsonObject) (disk : Disk) :
    Disk :=
  if disk.canWrite filename then
    { disk with text := Function.update disk.text filename (some (qt.toJson jsonTree)) }
  else disk

end QJsonFactory

/-- After `cmd_cfg_set`; `handled` is its exception 0. -/
structure CfgSet where
  calls : List ReplyCall
  disk : Disk
  handled : Bool

/-- `cfg` is the field of that name in the posted data. -/
def cmd_cfg_set (qt : QJsonDocument) (configFileName : String) (args : List String)
    (cfg : Option String) (disk : Disk) : CfgSet :=
  let header : ReplyCall :=
    .addHeader (QByteArrayLiteral "Content-Type") (QByteArrayLiteral "text/plain")
  if args.head? = some "cfg_set" then
    match cfg with
    | none => ⟨[header], disk, true⟩
    | some data =>
      match qt.fromJson (qt.fromPercentEncoding data) with
      | .ok hyperionConfig =>
        ⟨[header], QJsonFactory.writeJson qt configFileName hyperionConfig.toObject disk, true⟩
      | .error error =>
        let message := "Error while validating json: " ++ error.errorString
        ⟨[header, .appendRawData message.toUTF8.toList], disk, true⟩
  else ⟨[header], disk, false⟩

end HyperionNg
