import HyperionNg.EffectCommands
import HyperionNg.EffectDefinitions
import HyperionNg.RemoteCommands

/-! Runs of messages over the effects on offer. An effect that is saved takes the
place of the one of its name, and one that is deleted gives way to the one it has
overloaded; no message does anything else to them. -/

namespace HyperionNg

open Library Overlay QJsonSchemaChecker JsonCommands
open Library.Execution (Reaches Along)

abbrev EffectStacks := String → List (Entry String String DefinedEffect)

inductive EffectChange
  | keep
  | save (effect : Entry String String DefinedEffect)
  | delete (name : String)

def EffectChange.saving (effect : Option (Entry String String DefinedEffect)) : EffectChange :=
  effect.elim keep save

def EffectChange.apply (layers : EffectStacks) : EffectChange → EffectStacks
  | keep => layers
  | save effect => Function.update layers effect.name ((layers effect.name).dropLast ++ [effect])
  | delete name => Function.update layers name (layers name).dropLast

namespace EffectSite

variable (site : EffectSite)

def listing (file : String) : Option (String × String) :=
  site.efxPathList.findSome? fun path => (site.paths.entryName path file).map (path, ·)

def saveDirectory : String :=
  (arrayMember site.effectConfig "paths").head?.elim "" (Json.toString "")

end EffectSite

def succeeded (replies : List QJsonObject) : Bool :=
  replies.any fun reply => reply.value "success" = some (.bool true)

namespace EffectStore

variable {σ : Type} (site : EffectSite)

def layers (s : EffectStore σ) : EffectStacks := stack (site.definitions s.disk)

def savePath (s : EffectStore σ) (message : QJsonObject) : Option String :=
  newFileName (s.host site) (s.view site) site.saveDirectory (stringMember message "name" "")

/-- The effect a message saves, if its file can be written and is read again. -/
def saved (s : EffectStore σ) (message : QJsonObject) :
    Option (Entry String String DefinedEffect) := do
  let name := stringMember message "name" ""
  let path ← s.savePath site message
  let file := site.paths.absoluteFilePath path
  let (directory, entry) ← site.listing file
  if s.disk.canWrite file && s.disk.canRead file && !site.disableList.contains name then
    some ⟨file, name, directory, directory ++ "/" ++ entry, stringMember message "script" "",
      objectMember message "args"⟩
  else none

variable (others : Dialogue.Surroundings DaemonRequest.Answer σ)

def handling (s : EffectStore σ) (text : String) : Handling :=
  handleMessage (s.host site) (s.view site) text

def change (s : EffectStore σ) (text : String) : EffectChange :=
  match site.host.fromJson text with
  | .error _ => .keep
  | .ok doc =>
    let message := doc.toObject
    let command := stringMember message "command" ""
    if succeeded (Dialogue.sent (answer site others) (s.handling site text) s) then
      if command = "create-effect" then .saving (s.saved site message)
      else if command = "delete-effect" then .delete (stringMember message "name" "")
      else .keep
    else .keep

def Current (s : EffectStore σ) : Prop := s.reload site = s

/-- A file that can be written has a path the system takes, and what is saved
comes out of the text again. -/
structure Fits (s : EffectStore σ) (message : QJsonObject) : Prop where
  short : ∀ path, s.savePath site message = some path →
    s.disk.canWrite (site.paths.absoluteFilePath path) = true → path.length ≤ site.maxLength
  readBack : site.host.fromJson (site.toJson (savedObject message)) =
    .ok (.object (savedObject message))

variable {site others} {s t : EffectStore σ}

theorem Current.find (current : s.Current site) (apart : site.Apart) (n : String) :
    s.availableEffects.find? (·.name = n) =
      (s.layers site n).getLast?.map (site.offered s.disk) := by
  rw [← current]
  exact EffectSite.find?_readEffects apart s.disk n

/-! A message that does not touch the effects. -/

theorem answer_keeps {query : DaemonRequest} (other : query.onEffects = false)
    {reply : Except String query.Answer} (answered : answer site others query s = some (reply, t)) :
    (t.disk, t.availableEffects, t.effectSchemas) =
      (s.disk, s.availableEffects, s.effectSchemas) := by
  have elsewhere : answer site others query s =
      (others query s.rest).map fun answered => (answered.1, { s with rest := answered.2 }) := by
    cases query with
    | writeJson | remove | reloadEffects => cases other
    | _ => rfl
  rw [elsewhere] at answered
  obtain ⟨_, -, same⟩ := Option.map_eq_some_iff.mp answered
  rw [← (Prod.mk.inj same).2]

theorem Current.of_same (current : s.Current site)
    (same : (t.disk, t.availableEffects, t.effectSchemas) =
      (s.disk, s.availableEffects, s.effectSchemas)) : t.Current site := by
  obtain ⟨disk, available, schemas⟩ : t.disk = s.disk ∧ t.availableEffects = s.availableEffects ∧
    t.effectSchemas = s.effectSchemas := by simpa using same
  have effects := congrArg availableEffects current
  have pySchemas := congrArg effectSchemas current
  rw [Current, reload, disk]
  obtain ⟨_, _, _, rest⟩ := t
  subst disk available schemas
  exact congrArg₂ (fun a b => EffectStore.mk s.disk a b rest) effects pySchemas

private theorem leaves_reached {program : Handling} (leaves : Leaves program)
    (stops : Dialogue.reached (answer site others) program s = some t) :
    (t.disk, t.availableEffects, t.effectSchemas) =
      (s.disk, s.availableEffects, s.effectSchemas) :=
  leaves.reached_eq (fun s => (s.disk, s.availableEffects, s.effectSchemas))
    (fun _ _ _ _ other answered => answer_keeps other answered) stops

/-! What is saved is read again. -/

theorem validate_savedObject (r : Rendering) (message : QJsonObject) :
    QJsonSchemaChecker.validate r EffectSite.effectSchema (savedObject message) false = true := by
  have holds : (closed true [("args", [.required true, .type .object]),
      ("name", CommandSchema.requiredString), ("script", CommandSchema.requiredString)]).Holds
      .checker (.object (savedObject message)) := by
    change (closed true _).Holds .checker (.object (QJsonObject.ofOptions
      [("args", some (.object (objectMember message "args"))),
        ("name", some (.string (stringMember message "name" ""))),
        ("script", some (.string (stringMember message "script" "")))]))
    refine (closed_holds_iff true (by simp) (by simp)).mpr fun member mem => ?_
    rcases List.mem_cons.mp mem with rfl | mem
    · exact ⟨trivial, rfl, trivial⟩
    · rcases List.mem_pair.mp mem with rfl | rfl
      · exact requiredString_holds _
      · exact requiredString_holds _
  exact (validate_iff r _ _).mpr holds

theorem definition_savedObject {message : QJsonObject} (fits : s.Fits site message)
    (script : stringMember message "script" "" ≠ "") :
    site.definition (site.toJson (savedObject message)) =
      some (stringMember message "name" "", stringMember message "script" "",
        objectMember message "args") := by
  rw [EffectSite.definition, fits.readBack]
  change (if QJsonSchemaChecker.validate site.host.rendering EffectSite.effectSchema
    (savedObject message) false then _ else none) = _
  rw [if_pos (validate_savedObject _ _)]
  exact if_neg script

theorem Current.pyFile_ne (current : s.Current site) {schema : EffectSchema}
    (mem : schema ∈ s.effectSchemas) : schema.pyFile ≠ "" := by
  rw [← current] at mem
  obtain ⟨path, -, mem⟩ := List.mem_flatMap.mp mem
  obtain ⟨name, -, found⟩ := List.mem_filterMap.mp mem
  obtain ⟨text, -, found⟩ := Option.bind_eq_some_iff.mp found
  intro empty
  split at found
  · cases found
  · simp only at found
    split_ifs at found
    · obtain rfl := Option.some.inj found
      exact absurd (congrArg String.length empty) (by simp)
    · obtain rfl := Option.some.inj found
      exact absurd (congrArg String.length empty) (by simp)

/-! Where a saved effect is read. -/

theorem load_saved {message : QJsonObject} (fits : s.Fits site message)
    (script : stringMember message "script" "" ≠ "") (canRead : String → Bool)
    (path file : String) :
    site.load canRead path (file, site.toJson (savedObject message)) =
      (site.paths.entryName path file).bind fun entry =>
        if canRead file && !site.disableList.contains (stringMember message "name" "") then
          some ⟨file, stringMember message "name" "", path, path ++ "/" ++ entry,
            stringMember message "script" "", objectMember message "args"⟩
        else none := by
  unfold EffectSite.load
  rw [definition_savedObject fits script]
  refine Option.bind_congr fun entry _ => ?_
  cases canRead file with
  | false => rfl
  | true =>
    cases disabled : site.disableList.contains (stringMember message "name" "") with
    | false => exact if_neg (Bool.eq_false_iff.mp disabled)
    | true => exact if_pos disabled

theorem saved_eq {message : QJsonObject} (fits : s.Fits site message)
    (script : stringMember message "script" "" ≠ "") {path : String}
    (saves : s.savePath site message = some path)
    (canWrite : s.disk.canWrite (site.paths.absoluteFilePath path) = true) :
    s.saved site message = site.efxPathList.findSome? fun p => site.load s.disk.canRead p
      (site.paths.absoluteFilePath path, site.toJson (savedObject message)) := by
  rw [saved, saves, Option.bind_eq_bind, Option.bind_some]
  generalize site.paths.absoluteFilePath path = file at canWrite ⊢
  simp only [load_saved fits script, canWrite, Bool.true_and]
  split_ifs with taken
  · change (site.listing file).bind (some ∘ _) = _
    rw [← Option.map_eq_bind, EffectSite.listing, List.map_findSome?]
    refine congrArg (site.efxPathList.findSome? ·) (funext fun p => ?_)
    rw [Function.comp_apply, Option.map_map, Option.map_eq_bind]
    rfl
  · simp only [Option.bind_eq_bind, Option.bind_fun_none]
    exact (List.findSome?_eq_none_iff.mpr fun _ _ => rfl).symm

theorem saved_none {message : QJsonObject} {path : String}
    (saves : s.savePath site message = some path)
    (refused : s.disk.canWrite (site.paths.absoluteFilePath path) = false) :
    s.saved site message = none := by
  rw [saved, saves, Option.bind_eq_bind, Option.bind_some]
  simp only [refused, Bool.false_and, Option.bind_eq_bind]
  exact Option.bind_fun_none _

theorem savePath_cases (apart : site.Apart) (current : s.Current site) {message : QJsonObject}
    {path : String} (saves : s.savePath site message = some path) :
    (∃ e, (s.layers site (stringMember message "name" "")).getLast? = some e ∧
      path = e.held.file) ∨
    s.layers site (stringMember message "name" "") = [] ∧ site.fileExists s.disk path = false := by
  have found : (s.view site).getEffects.find? (·.name = stringMember message "name" "") = _ :=
    current.find apart (stringMember message "name" "")
  rw [savePath, newFileName, found] at saves
  cases top : (s.layers site (stringMember message "name" "")).getLast? with
  | none =>
    rw [top] at saves
    refine Or.inr ⟨List.getLast?_eq_none_iff.mp top, ?_⟩
    rw [← Option.some.inj saves]
    exact FileSystem.freeFile_free (s.fileSystem site) _ _ _ _
  | some e =>
    simp only [top, Option.map_some] at saves
    split_ifs at saves
    exact Or.inl ⟨e, rfl, (Option.some.inj saves).symm⟩

/-! What a saved effect makes of the stacks. -/

theorem layers_rewrite (apart : site.Apart) {message : QJsonObject} (fits : s.Fits site message)
    (script : stringMember message "script" "" ≠ "") {e : Entry String String DefinedEffect}
    (top : (s.layers site (stringMember message "name" "")).getLast? = some e)
    (saves : s.savePath site message = some e.held.file)
    (canWrite : s.disk.canWrite (site.paths.absoluteFilePath e.held.file) = true) :
    stack (site.definitions (s.disk.write site.paths.before
      (site.paths.absoluteFilePath e.held.file) (site.toJson (savedObject message)))) =
      (EffectChange.saving (s.saved site message)).apply (s.layers site) := by
  obtain ⟨-, mem, name⟩ := stack_split top
  obtain ⟨here, -, absolute, listed, readable, enabled, -⟩ :=
    EffectSite.of_mem_definitions apart mem
  obtain ⟨entry, named⟩ := Option.isSome_iff_exists.mp listed
  have effect := saved_eq fits script saves canWrite
  have found := load_saved fits script s.disk.canRead e.held.directory e.key
  rw [absolute] at canWrite effect ⊢
  rw [named, readable, ← name, enabled, Option.bind_some] at found
  simp only [Bool.not_false, Bool.and_self, if_true] at found
  rw [(apart.once_load s.disk.canRead).findSome?_eq here (Option.isSome_of_eq_some found),
    found] at effect
  rw [effect, EffectSite.definitions_rewrite site.paths.before apart mem canWrite found]
  rw [← name] at top
  exact stack_put (apart.nodup s.disk) top rfl

theorem name_of_load {message : QJsonObject} (fits : s.Fits site message)
    (script : stringMember message "script" "" ≠ "") {path file : String}
    {e : Entry String String DefinedEffect}
    (found : site.load s.disk.canRead path (file, site.toJson (savedObject message)) = some e) :
    e.name = stringMember message "name" "" := by
  rw [load_saved fits script] at found
  obtain ⟨_, -, found⟩ := Option.bind_eq_some_iff.mp found
  split_ifs at found
  exact congrArg Entry.name (Option.some.inj found).symm

theorem layers_new (apart : site.Apart) {message : QJsonObject} (fits : s.Fits site message)
    (script : stringMember message "script" "" ≠ "") {path : String}
    (saves : s.savePath site message = some path)
    (canWrite : s.disk.canWrite (site.paths.absoluteFilePath path) = true)
    (unknown : s.layers site (stringMember message "name" "") = [])
    (free : site.fileExists s.disk path = false) :
    stack (site.definitions (s.disk.write site.paths.before (site.paths.absoluteFilePath path)
      (site.toJson (savedObject message)))) =
      (EffectChange.saving (s.saved site message)).apply (s.layers site) := by
  have short := fits.short path saves canWrite
  have absent : s.disk.contains (site.paths.absoluteFilePath path) = false := by
    rw [EffectSite.fileExists, decide_eq_true short, Bool.true_and] at free
    exact (Bool.or_eq_false_iff.mp free).1
  have effect := saved_eq fits script saves canWrite
  obtain ⟨front, back, old, new⟩ := EffectSite.definitions_new site.paths.before
    (site.toJson (savedObject message)) apart canWrite absent
  rw [new, ← effect]
  rw [layers, old] at unknown ⊢
  cases saved : s.saved site message with
  | none =>
    rw [Option.toList_none, List.append_nil]
    rfl
  | some e =>
    rw [saved] at effect
    obtain ⟨p, -, found⟩ := List.exists_of_findSome?_eq_some effect.symm
    rw [← name_of_load fits script found] at unknown
    rw [Option.toList_some, List.append_assoc, List.singleton_append, stack_insert unknown]
    change _ = Function.update _ e.name ((stack _ e.name).dropLast ++ [e])
    rw [unknown]
    rfl

theorem layers_write (apart : site.Apart) (current : s.Current site) {message : QJsonObject}
    (fits : s.Fits site message) (script : stringMember message "script" "" ≠ "") {path : String}
    (saves : s.savePath site message = some path) :
    stack (site.definitions (s.disk.write site.paths.before (site.paths.absoluteFilePath path)
      (site.toJson (savedObject message)))) =
      (EffectChange.saving (s.saved site message)).apply (s.layers site) := by
  cases canWrite : s.disk.canWrite (site.paths.absoluteFilePath path) with
  | false =>
    rw [saved_none saves canWrite, EffectDisk.write, if_neg (Bool.eq_false_iff.mp canWrite)]
    rfl
  | true =>
    rcases savePath_cases apart current saves with ⟨e, top, rfl⟩ | ⟨unknown, free⟩
    · exact layers_rewrite apart fits script top saves canWrite
    · exact layers_new apart fits script saves canWrite unknown free

/-! The two commands. -/

section Commands

variable (site others s) (message : QJsonObject) (command : String) (tan : Int)
  (handler : String → Handling)

theorem refused (error : String) :
    Dialogue.reached (answer site others) ((sendErrorReply error command tan).catching handler) s =
      some s ∧
    succeeded (Dialogue.sent (answer site others)
      ((sendErrorReply error command tan).catching handler) s) = false :=
  ⟨rfl, rfl⟩

theorem accepted :
    Dialogue.reached (answer site others) ((sendSuccessReply command tan).catching handler) s =
      some s ∧
    succeeded (Dialogue.sent (answer site others)
      ((sendSuccessReply command tan).catching handler) s) = true :=
  ⟨rfl, by simp [sendSuccessReply, sendMessage, Dialogue.emit, Dialogue.catching, Dialogue.sent,
    succeeded, QJsonObject.value, List.lookup_cons]⟩

def Ends (program : Handling) (s t : EffectStore σ) (success : Bool) : Prop :=
  Dialogue.reached (answer site others) (program.catching handler) s = some t ∧
    succeeded (Dialogue.sent (answer site others) (program.catching handler) s) = success

variable {site others s message command tan handler}

theorem ends_request {query : DaemonRequest} {a : query.Answer} {next : query.Answer → Handling}
    {u : EffectStore σ} {success : Bool} (back : answer site others query s = some (.ok a, u))
    (rest : Ends site others handler (next a) u t success) :
    Ends site others handler (request query >>= next) s t success :=
  ⟨(Dialogue.reached_catching_call next handler back).trans rest.1,
    (congrArg succeeded (Dialogue.sent_catching_call next handler back)).trans rest.2⟩

theorem saving_ends (apart : site.Apart) (current : s.Current site) (fits : s.Fits site message) :
    ∃ t success, Ends site others handler (handleCreateEffectCommand (s.host site) (s.view site)
        message command tan) s t success ∧ t.Current site ∧
      t.layers site = (if success then EffectChange.saving (s.saved site message)
        else .keep).apply (s.layers site) := by
  rcases handleCreateEffectCommand_cases (s.host site) (s.view site) message command tan with
    ⟨error, same⟩ | ⟨directory, rest, schema, path, paths, mem, pyFile, saves, same⟩
  · exact ⟨s, false, same ▸ refused site others s command tan handler error, current, rfl⟩
  · have script : stringMember message "script" "" ≠ "" := by
      intro empty
      rw [empty] at pyFile
      exact current.pyFile_ne mem pyFile
    have saves : s.savePath site message = some path := by
      rw [savePath, EffectSite.saveDirectory]
      change newFileName _ _ ((arrayMember (objectMember (s.view site).getQJsonConfig "effects")
        "paths").head?.elim "" _) _ = _
      rw [paths]
      exact saves
    rw [same]
    refine ⟨_, true,
      ends_request rfl (ends_request rfl (accepted site others _ command tan handler)),
      rfl, ?_⟩
    exact layers_write apart current fits script saves

theorem deleting_ends (apart : site.Apart) (current : s.Current site) :
    ∃ t success, Ends site others handler (handleDeleteEffectCommand (s.view site)
        message command tan) s t success ∧ t.Current site ∧
      t.layers site = (if success then EffectChange.delete (stringMember message "name" "")
        else .keep).apply (s.layers site) := by
  rcases handleDeleteEffectCommand_cases (s.view site) message command tan with
    ⟨error, same⟩ | ⟨effect, error, found, same⟩
  · exact ⟨s, false, same ▸ refused site others s command tan handler error, current, rfl⟩
  · have offered := current.find apart (stringMember message "name" "")
    obtain ⟨e, top, rfl⟩ := Option.map_eq_some_iff.mp (offered.symm.trans found)
    obtain ⟨-, mem, -⟩ := stack_split top
    obtain ⟨-, present, absolute, -⟩ := EffectSite.of_mem_definitions apart mem
    rw [same]
    change ∃ t success, Ends site others handler
      (request (.remove (site.paths.absoluteFilePath e.held.file)) >>= _) s t success ∧ _
    rw [absolute]
    cases removes : s.disk.canRemove e.key with
    | false =>
      have back : answer site others (.remove e.key) s = some (.ok false, s) :=
        if_neg (by rw [removes, Bool.and_false]; exact Bool.false_ne_true)
      exact ⟨s, false, ends_request back (refused site others s command tan handler error), current,
        rfl⟩
    | true =>
      have back : answer site others (.remove e.key) s =
          some (.ok true, { s with disk := s.disk.remove e.key }) :=
        if_pos (by rw [removes, present, Bool.and_true])
      refine ⟨_, true, ends_request back (ends_request rfl
        (accepted site others _ command tan handler)), rfl, ?_⟩
      have files : site.definitions (s.disk.remove e.key) =
          remove e.key (site.definitions s.disk) :=
        read_remove (EffectSite.keyed _) e.key
      change stack (site.definitions (s.disk.remove e.key)) = _
      rw [files]
      exact stack_remove (apart.nodup s.disk) top

end Commands

/-! Whole messages. -/

private theorem of_ends {handler : String → Handling} {program : Handling} {u : EffectStore σ}
    {success : Bool} (ends : Ends site others handler program s t success)
    (stops : Dialogue.reached (answer site others) (program.catching handler) s = some u) :
    u = t ∧ succeeded (Dialogue.sent (answer site others) (program.catching handler) s) = success :=
  ⟨Option.some.inj (stops.symm.trans ends.1), ends.2⟩

variable (site)

def Fitting (s : EffectStore σ) (text : String) : Prop :=
  ∀ doc, site.host.fromJson text = .ok doc →
    stringMember doc.toObject "command" "" = "create-effect" → s.Fits site doc.toObject

variable {site}

private theorem handling_malformed {text : String} {error : JsonParseError}
    (read : site.host.fromJson text = .error error) : s.handling site text =
      sendErrorReply (parseMessage "Error while parsing json: " utf16Size error text) "" 0 := by
  have read : (s.host site).fromJson text = .error error := read
  rw [handling, handleMessage, read]

theorem handling_invalid {text errors : String} {doc : Json}
    (read : site.host.fromJson text = .ok doc)
    (checked : checkMessage (s.host site) doc.toObject = .error errors) : s.handling site text =
      sendErrorReply ("Error while validating json: " ++ errors) "" 0 := by
  have read : (s.host site).fromJson text = .ok doc := read
  rw [handling, handleMessage, read]
  simp only [checked]

theorem handling_command {text : String} {doc : Json} (read : site.host.fromJson text = .ok doc)
    (checked : checkMessage (s.host site) doc.toObject = .ok ()) :
    ∃ handler, (∀ what, Leaves (handler what)) ∧ s.handling site text =
      (handleCommand (s.host site) (s.view site) doc.toObject
        (stringMember doc.toObject "command" "") (intMember doc.toObject "tan" 0)).catching
          handler := by
  have read : (s.host site).fromJson text = .ok doc := read
  rw [handling, handleMessage, read]
  simp only [checked]
  exact ⟨_, fun _ => sendErrorReply_leaves .., rfl⟩

theorem command_step (apart : site.Apart) (current : s.Current site) {message : QJsonObject}
    {command : String} {tan : Int} {handler : String → Handling}
    (replies : ∀ what, Leaves (handler what))
    (fits : command = "create-effect" → s.Fits site message)
    (stops : Dialogue.reached (answer site others) ((handleCommand (s.host site) (s.view site)
      message command tan).catching handler) s = some t) :
    t.Current site ∧ t.layers site =
      (if succeeded (Dialogue.sent (answer site others) ((handleCommand (s.host site) (s.view site)
          message command tan).catching handler) s) then
        if command = "create-effect" then EffectChange.saving (s.saved site message)
        else if command = "delete-effect" then .delete (stringMember message "name" "")
        else .keep
      else .keep).apply (s.layers site) := by
  by_cases create : command = "create-effect"
  · subst create
    rw [handleCommand_createEffect] at stops ⊢
    obtain ⟨u, success, ends, kept, layers⟩ := saving_ends apart current (fits rfl)
    obtain ⟨rfl, success⟩ := of_ends ends stops
    rw [success, if_pos rfl]
    exact ⟨kept, layers⟩
  · by_cases delete : command = "delete-effect"
    · subst delete
      rw [handleCommand_deleteEffect] at stops ⊢
      obtain ⟨u, success, ends, kept, layers⟩ := deleting_ends apart current
      obtain ⟨rfl, success⟩ := of_ends ends stops
      rw [success, if_neg create, if_pos rfl]
      exact ⟨kept, layers⟩
    · have leaves := handleCommand_leaves (s.host site) (s.view site) message command tan create
        delete
      have same := leaves_reached (leaves.catching replies) stops
      have disk : t.disk = s.disk := congrArg Prod.fst same
      rw [if_neg create, if_neg delete, ite_self, EffectStore.layers, disk]
      exact ⟨current.of_same same, rfl⟩

theorem message_step (apart : site.Apart) (current : s.Current site) {text : String}
    (fitting : s.Fitting site text)
    (stops : Dialogue.reached (answer site others) (s.handling site text) s = some t) :
    t.Current site ∧ t.layers site = (s.change site others text).apply (s.layers site) := by
  cases read : site.host.fromJson text with
  | error error =>
    rw [handling_malformed read] at stops
    obtain rfl := Option.some.inj stops
    exact ⟨current, by rw [change, read]; rfl⟩
  | ok doc =>
    rw [change, read]
    simp only
    cases checked : checkMessage (s.host site) doc.toObject with
    | error errors =>
      rw [handling_invalid read checked] at stops ⊢
      obtain rfl := Option.some.inj stops
      exact ⟨current, rfl⟩
    | ok _ =>
      obtain ⟨handler, replies, handled⟩ := handling_command read checked
      rw [handled] at stops ⊢
      exact command_step apart current replies (fitting doc read) stops

end EffectStore

/-! Runs. -/

/-- The daemon, and what the messages have done to its effects so far. -/
structure EffectSession (σ : Type) where
  store : EffectStore σ
  changes : List EffectChange

namespace EffectSession

variable {σ : Type} (site : EffectSite)
  (others : Dialogue.Surroundings DaemonRequest.Answer σ)

def receive (session : EffectSession σ) (text : String) : Except Unit (EffectSession σ) :=
  match Dialogue.reached (EffectStore.answer site others) (session.store.handling site text)
    session.store with
  | none => .error ()
  | some store => .ok ⟨store, session.changes ++ [session.store.change site others text]⟩

def OnTop (start : EffectStacks) (session : EffectSession σ) : Prop :=
  session.store.Current site ∧
    session.store.layers site = session.changes.foldl EffectChange.apply start

variable {site others}

theorem receive_step (apart : site.Apart) {start : EffectStacks} {session next : EffectSession σ}
    {text : String} (onTop : session.OnTop site start) (fitting : session.store.Fitting site text)
    (ok : session.receive site others text = .ok next) : next.OnTop site start := by
  rw [receive] at ok
  cases stops : Dialogue.reached (EffectStore.answer site others) (session.store.handling site text)
      session.store with
  | none =>
    rw [stops] at ok
    cases ok
  | some store =>
    rw [stops] at ok
    obtain rfl := Except.ok.inj ok
    obtain ⟨current, layers⟩ := EffectStore.message_step apart onTop.1 fitting stops
    refine ⟨current, layers.trans ?_⟩
    rw [List.foldl_concat, onTop.2]

theorem run_onTop (apart : site.Apart) {start : EffectStore σ} (current : start.Current site)
    {texts : List String} {session : EffectSession σ}
    (run : Reaches (receive site others) ⟨start, []⟩ texts session)
    (fitting : Along (receive site others) (fun session text => session.store.Fitting site text)
      ⟨start, []⟩ texts) : session.OnTop site (start.layers site) :=
  run.invariant_along (fun _ _ _ onTop fits ok => receive_step apart onTop fits ok) fitting
    ⟨current, rfl⟩

/-- What is on offer under a name after any messages. -/
theorem offered_after (apart : site.Apart) {start : EffectStore σ} (current : start.Current site)
    {texts : List String} {session : EffectSession σ}
    (run : Reaches (receive site others) ⟨start, []⟩ texts session)
    (fitting : Along (receive site others) (fun session text => session.store.Fitting site text)
      ⟨start, []⟩ texts) (name : String) :
    session.store.availableEffects.find? (·.name = name) =
      (session.changes.foldl EffectChange.apply (start.layers site) name).getLast?.map
        (site.offered session.store.disk) := by
  obtain ⟨current, layers⟩ := run_onTop apart current run fitting
  rw [← layers]
  exact current.find apart name

/-! An effect of the resources, overloaded by one of a client. -/

def swirlMessage : QJsonObject :=
  [("args", .object [("speed", .double 2)]), ("command", .string "create-effect"),
    ("name", .string "swirl"), ("script", .string "custom/swirl.py")]

def swirlTexts : List (String × QJsonObject) :=
  [("\x7b\"args\":\x7b\"speed\":2\x7d,\"command\":\"create-effect\",\"name\":\"swirl\"," ++
      "\"script\":\"custom/swirl.py\"\x7d", swirlMessage),
    ("\x7b\"command\":\"delete-effect\",\"name\":\"swirl\"\x7d",
      [("command", .string "delete-effect"), ("name", .string "swirl")]),
    ("\x7b\n    \"args\": \x7b\n        \"speed\": 2\n    \x7d,\n    \"name\": \"swirl\",\n" ++
      "    \"script\": \"custom/swirl.py\"\n\x7d\n", JsonCommands.savedObject swirlMessage),
    ("\x7b\"args\":\x7b\x7d,\"name\":\"swirl\",\"script\":\":swirl.py\"\x7d",
      [("args", .object []), ("name", .string "swirl"), ("script", .string ":swirl.py")]),
    ("\x7b\"script\":\"swirl.py\",\"type\":\"object\"\x7d",
      [("script", .string "swirl.py"), ("type", .string "object")])]

def swirlText (n : Nat) : String := (swirlTexts.map Prod.fst).getD n ""

def swirlSite : EffectSite where
  host := { Host.ofMessage "" .null with
    fromJson := fun text =>
      (swirlTexts.lookup text).elim (.error ⟨0, "illegal value"⟩) fun object =>
        .ok (.object object) }
  toJson _ := swirlText 2
  paths :=
    { absoluteFilePath := fun path => path
      entryName := fun directory file =>
        if directory ++ "/" ++ "swirl.json" = file then some "swirl.json" else none
      before := fun _ _ => true
      names := by
        intro directory file name _ found
        split_ifs at found with same
        obtain rfl := Option.some.inj found
        exact same }
  maxLength := 4095
  daemon :=
    { getQJsonConfig := [("effects", .object [("paths", .array [.string "custom"])])]
      files := noFiles }

def swirlDisk : EffectDisk where
  files := [(":/effects//swirl.json", swirlText 3), ("custom/swirl.json", swirlText 3),
    ("customschema//swirl.json", swirlText 4)]
  distinct := by decide
  others path := path = "custom/swirl.py"
  canRead _ := true
  canWrite _ := true
  canRemove _ := true

def swirlStart : EffectStore Unit := EffectStore.reload swirlSite ⟨swirlDisk, [], [], ()⟩

def nothingElse : Dialogue.Surroundings DaemonRequest.Answer Unit := fun _ _ => none

theorem swirl_apart : swirlSite.Apart where
  named := by decide +kernel
  once := by
    change ([":/effects/", "custom"] : List String).Pairwise _
    refine List.pairwise_pair.mpr fun file listed => ?_
    change (if ":/effects/" ++ "/" ++ "swirl.json" = file then some "swirl.json" else none).isSome
      at listed
    split_ifs at listed with same
    · rw [← same]
      decide
    · cases listed

theorem swirl_fits : swirlStart.Fits swirlSite swirlMessage where
  short path saves _ := by
    have found : swirlStart.savePath swirlSite swirlMessage = some "custom/swirl.json" := by
      decide +kernel
    obtain rfl := Option.some.inj (found.symm.trans saves)
    decide
  readBack := rfl

/-- A saved effect is offered in place of the one it overwrites, and the effect
of the resources once it is deleted. -/
theorem swirl_offered_after : ∃ session,
    Reaches (receive swirlSite nothingElse) ⟨swirlStart, []⟩ [swirlText 0, swirlText 1] session ∧
    session.store.availableEffects.find? (·.name = "swirl") =
      (session.changes.foldl EffectChange.apply (swirlStart.layers swirlSite) "swirl").getLast?.map
        (swirlSite.offered session.store.disk) := by
  have returns : Execution.evaluates (receive swirlSite nothingElse) (.ok ⟨swirlStart, []⟩)
      [swirlText 0, swirlText 1] (fun _ => true) = true := by decide +kernel
  obtain ⟨start, session, same, run, -⟩ := Execution.exists_of_evaluates returns
  obtain rfl := Except.ok.inj same
  have current : swirlStart.Current swirlSite := rfl
  refine ⟨session, run, offered_after swirl_apart current run ⟨?_, fun next _ => ⟨?_, fun _ _ =>
    trivial⟩⟩ "swirl"⟩
  · intro doc read _
    obtain rfl := Except.ok.inj read
    exact swirl_fits
  · intro doc read create
    obtain rfl := Except.ok.inj read
    exact absurd create (by decide)

end EffectSession

end HyperionNg
