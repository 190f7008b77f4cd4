import HyperionNg.JsonCommands

/-! The effects on offer: files that define one each, in the directories of the
configuration. They are read anew whenever a client has saved or deleted one. -/

namespace HyperionNg

open Library JsonCommands

/-- How `QFileInfo` and `QDir` take paths. `entryName` is the name under which a
directory lists a file, if that is a visible one with `.json` at its end. -/
structure EffectPaths where
  absoluteFilePath : String → String
  entryName : String → String → Option String
  before : String → String → Bool
  names : ∀ directory file name, directory ≠ "" → entryName directory file = some name →
    absoluteFilePath (directory ++ "/" ++ name) = file

/-- Files and their texts, by absolute path and in the order a directory lists
them in; `others` are the paths of anything else. -/
structure EffectDisk where
  files : List (String × String)
  distinct : (files.map Prod.fst).Nodup
  others : String → Bool
  canRead : String → Bool
  canWrite : String → Bool
  canRemove : String → Bool

namespace EffectDisk

def contains (disk : EffectDisk) (file : String) : Bool := (disk.files.map Prod.fst).contains file

def fileExists (disk : EffectDisk) (file : String) : Bool := disk.contains file || disk.others file

def opens (disk : EffectDisk) (file : String) : Bool := disk.fileExists file && disk.canRead file

def readAll (disk : EffectDisk) (file : String) : Option String :=
  if disk.canRead file then disk.files.lookup file else none

/-- A file that is opened for writing is made if there is none. -/
def write (disk : EffectDisk) (before : String → String → Bool) (file text : String) : EffectDisk :=
  if disk.canWrite file then
    if present : disk.contains file = true then
      { disk with
        files := disk.files.map fun old => if old.1 = file then (file, text) else old
        distinct := by
          have same : (disk.files.map fun old => if old.1 = file then (file, text) else old).map
              Prod.fst = disk.files.map Prod.fst := by
            rw [List.map_map]
            refine List.map_congr_left fun old _ => ?_
            rw [Function.comp_apply]
            split_ifs with here
            · exact here.symm
            · rfl
          rw [same]
          exact disk.distinct }
    else
      { disk with
        files := disk.files.takeWhile (fun old => before old.1 file) ++
          (file, text) :: disk.files.dropWhile (fun old => before old.1 file)
        distinct := by
          have absent : file ∉ disk.files.map Prod.fst := by simpa [contains] using present
          have whole := disk.distinct
          rw [← List.takeWhile_append_dropWhile (p := fun old => before old.1 file)
            (l := disk.files)]
            at absent whole
          rw [List.map_append] at absent whole ⊢
          rw [List.map_cons]
          exact List.nodup_middle.mpr (List.nodup_cons.mpr ⟨absent, whole⟩) }
  else disk

def remove (disk : EffectDisk) (file : String) : EffectDisk :=
  { disk with
    files := disk.files.filter (·.1 ≠ file)
    distinct := disk.distinct.sublist (List.filter_sublist.map _) }

end EffectDisk

/-- What stays as it is: Qt, the paths, and what the daemon answers else. -/
structure EffectSite where
  host : Host
  toJson : QJsonObject → String
  paths : EffectPaths
  maxLength : Nat
  daemon : Daemon

namespace EffectSite

variable (site : EffectSite)

/-- `:effect-schema` -/
def effectSchema : QJsonObject :=
  JsonSchemas.ofCommand true [("args", JsonSchemas.required "object" []),
    ("name", JsonSchemas.required "string" []), ("script", JsonSchemas.required "string" [])]

def definition (text : String) : Option (String × String × QJsonObject) :=
  let config := match site.host.fromJson text with
    | .ok configEffect => configEffect.toObject
    | .error _ => []
  if QJsonSchemaChecker.validate site.host.rendering effectSchema config false then
    let scriptName := stringMember config "script" ""
    if scriptName = "" then none
    else some (stringMember config "name" "", scriptName, objectMember config "args")
  else none

def fileExists (disk : EffectDisk) (path : String) : Bool :=
  decide (path.length ≤ site.maxLength) && disk.fileExists (site.paths.absoluteFilePath path)

def scriptPath (disk : EffectDisk) (path scriptName : String) : String :=
  if isInternal scriptName then
    if site.fileExists disk scriptName then scriptName
    else ":/effects/" ++ String.ofList (scriptName.toList.drop 1)
  else if site.fileExists disk scriptName then scriptName
  else path ++ "/" ++ scriptName

def loadEffectDefinition (disk : EffectDisk) (path effectConfigFile : String) :
    Option EffectEntry := do
  let fileName := path ++ "/" ++ effectConfigFile
  let fileContent ← disk.readAll (site.paths.absoluteFilePath fileName)
  let (name, scriptName, args) ← site.definition fileContent
  some { name, script := site.scriptPath disk path scriptName, file := fileName, args }

def loadEffectSchema (disk : EffectDisk) (path effectSchemaFile : String) :
    Option EffectSchema := do
  let fileName := path ++ "schema/" ++ "/" ++ effectSchemaFile
  let fileContent ← disk.readAll (site.paths.absoluteFilePath fileName)
  match site.host.fromJson fileContent with
  | .error _ => none
  | .ok schemaEffect =>
    let pySchema := schemaEffect.toObject
    let scriptName := stringMember pySchema "script" ""
    if scriptName = "" then none
    else if disk.opens (site.paths.absoluteFilePath (path ++ "/" ++ scriptName)) then
      let pyFile := if isInternal scriptName then
        ":/effects/" ++ String.ofList (scriptName.toList.drop 1)
        else path ++ "/" ++ scriptName
      some { pyFile, schemaFile := fileName, pySchema }
    else none

def effectConfig : QJsonObject := objectMember site.daemon.getQJsonConfig "effects"

def efxPathList : List String :=
  ":/effects/" :: (arrayMember site.effectConfig "paths").map (Json.toString "")

def disableList : List String := (arrayMember site.effectConfig "disable").map (Json.toString "")

/-- `entryList` for `*.json` -/
def entryList (disk : EffectDisk) (directory : String) : List String :=
  disk.files.filterMap fun file => site.paths.entryName directory file.1

end EffectSite

/-- The order of `QString`, by code units. -/
def QString.codeUnits (text : String) : List Nat :=
  text.toList.flatMap fun c =>
    if c.toNat < 0x10000 then [c.toNat]
    else [0xD800 + (c.toNat - 0x10000) / 0x400, 0xDC00 + (c.toNat - 0x10000) % 0x400]

def QString.lessThan (a b : String) : Bool := decide (codeUnits a < codeUnits b)

/-- `availableEffects[def.name] = def` on a map by names. -/
def assignEffect (available : List EffectEntry) (effect : EffectEntry) : List EffectEntry :=
  let others := available.filter (·.name ≠ effect.name)
  others.takeWhile (fun other => QString.lessThan other.name effect.name) ++
    effect :: others.dropWhile (fun other => QString.lessThan other.name effect.name)

namespace EffectSite

variable (site : EffectSite)

def loadedEffects (disk : EffectDisk) : List EffectEntry :=
  site.efxPathList.flatMap fun path =>
    ((site.entryList disk path).filterMap (site.loadEffectDefinition disk path)).filter
      fun effect =>
      !site.disableList.contains effect.name

def readEffects (disk : EffectDisk) : List EffectEntry × List EffectSchema :=
  ((site.loadedEffects disk).foldl assignEffect [],
    site.efxPathList.flatMap fun path =>
      (site.entryList disk (path ++ "schema/")).filterMap (site.loadEffectSchema disk path))

end EffectSite

/-- The daemon as far as its effects go, and all the rest of it. -/
structure EffectStore (σ : Type) where
  disk : EffectDisk
  availableEffects : List EffectEntry
  effectSchemas : List EffectSchema
  rest : σ

namespace EffectStore

variable {σ : Type} (site : EffectSite)

/-- `reloadEffects` -/
def reload (s : EffectStore σ) : EffectStore σ :=
  { s with
    availableEffects := (site.readEffects s.disk).1
    effectSchemas := (site.readEffects s.disk).2 }

def fileSystem (s : EffectStore σ) : FileSystem where
  fileExists := site.fileExists s.disk
  absoluteFilePath := site.paths.absoluteFilePath
  maxLength := site.maxLength
  length_le _ found := of_decide_eq_true (Bool.and_eq_true_iff.mp found).1

/-- What a handler reads. -/
def view (s : EffectStore σ) : Daemon :=
  { site.daemon with
    getEffects := s.availableEffects
    getEffectSchemas := s.effectSchemas
    files := s.fileSystem site }

def host (s : EffectStore σ) : Host :=
  { site.host with
    readAll := fun path => match s.disk.readAll (site.paths.absoluteFilePath path) with
      | some text => .ok text
      | none => site.host.readAll path }

def answer (others : Dialogue.Surroundings DaemonRequest.Answer σ) :
    Dialogue.Surroundings DaemonRequest.Answer (EffectStore σ)
  | .writeJson path tree, s =>
    some (.ok (), { s with disk := s.disk.write site.paths.before path (site.toJson tree) })
  | .remove path, s =>
    if s.disk.contains path && s.disk.canRemove path then
      some (.ok true, { s with disk := s.disk.remove path })
    else some (.ok false, s)
  | .reloadEffects, s => some (.ok (), s.reload site)
  | query, s => (others query s.rest).map fun (answer, rest) => (answer, { s with rest })

end EffectStore

end HyperionNg
