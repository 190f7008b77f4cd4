import HyperionNg.JsonCommands
import HyperionNg.SchemaConformance

/-! How often a text handed to the JSON server is answered. Every handler sends
its reply last and once; an exception before it is answered by `handleMessage`.
Only an adjustment command whose identifier is unknown is not answered. -/

namespace HyperionNg.JsonCommands

open Library
open Library.Dialogue (SendsOnce Quiet sent Answered quiet_call quiet_forM sendsOnce_emit)

section Core

variable (std : StdPow) (clock : Nat → Int)

def ofCall (call : Except (Execution.Thrown Fault Hyperion) Hyperion) :
    Option (Except String Unit × Hyperion) :=
  match call with
  | .ok t => some (.ok (), t)
  | .error thrown =>
    if thrown.fault.isException then some (.error "", thrown.state) else none

def core (others : Dialogue.Surroundings DaemonRequest.Answer Hyperion) :
    Dialogue.Surroundings DaemonRequest.Answer Hyperion
  | .setColors priority ledColors timeoutMs component, h =>
    ofCall (h.setColors priority ledColors timeoutMs true component clock)
  | .setEffect effectName _ priority timeout pythonScript, h =>
    some (.ok (), (h.runEffect effectName priority timeout pythonScript).1)
  | .clear priority, h => ofCall (h.clear priority clock)
  | .clearall, h => ofCall (h.clearall clock)
  | .setAdjustment id adjustment, h =>
    (h.raw2ledAdjustment.getAdjustment id).map fun colorAdjustment =>
      let raw2ledAdjustment := h.raw2ledAdjustment.modifyAdjustment colorAdjustment
        (adjustment.setColorAdjustment std)
      (.ok (), { h with raw2ledAdjustment })
  | .adjustmentsUpdated, h => ofCall (h.update (clock 0) (clock 1))
  | .setSourceAutoSelectEnabled enabled, h =>
    ofCall (h.setSourceAutoSelectEnabled enabled (clock 0) (clock 1))
  | .setCurrentSourcePriority priority, h =>
    some (.ok (h.setCurrentSourcePriority priority).2, (h.setCurrentSourcePriority priority).1)
  | query, h => others query h

/-- What the handlers read of Hyperion; the rest is given. -/
def view (rest : Daemon) (h : Hyperion) : Daemon :=
  { rest with
    getLedCount := h.ledString.length
    getAdjustmentIds := h.raw2ledAdjustment.adjustment.map ColorAdjustment.id
    getAdjustment := fun id =>
      (h.raw2ledAdjustment.getAdjustment id).bind (h.raw2ledAdjustment.adjustment[·]?) }

private theorem stringMember_id (adjustment : QJsonObject) (front : String) :
    stringMember adjustment "id" front = (adjustmentCommand adjustment).id.getD front := by
  unfold stringMember adjustmentCommand
  cases adjustment.value "id" with
  | none => rfl
  | some held => cases held <;> rfl

theorem handleAdjustmentCommand_reached
    (others : Dialogue.Surroundings DaemonRequest.Answer Hyperion) (rest : Daemon) (h : Hyperion)
    (message : QJsonObject) (command : String) (tan : Int) :
    Dialogue.reached (core std clock others)
        (handleAdjustmentCommand (view rest h) message command tan) h =
      (h.adjustmentStep std
        (adjustmentCommand (objectMember message "adjustment"), clock)).toOption := by
  unfold handleAdjustmentCommand Hyperion.adjustmentStep Hyperion.handleAdjustmentCommand
  cases registered : h.raw2ledAdjustment.adjustment with
  | nil =>
    simp only [view, registered, List.map_nil]
    rfl
  | cons front adjustments =>
    simp only [view, registered, ← stringMember_id, List.map_cons]
    generalize stringMember (objectMember message "adjustment") "id" front.id = id
    generalize adjustmentCommand (objectMember message "adjustment") = adjustment
    cases found : h.raw2ledAdjustment.getAdjustment id with
    | none => rfl
    | some k =>
      obtain ⟨bound, _⟩ := List.findIdx?_eq_some_iff_getElem.mp found
      rw [registered] at bound
      have assign : core std clock others (.setAdjustment id adjustment) h = some (.ok (), { h with
          raw2ledAdjustment := h.raw2ledAdjustment.modifyAdjustment k
            (adjustment.setColorAdjustment std) }) := by
        change Option.map _ (h.raw2ledAdjustment.getAdjustment id) = _
        rw [found, Option.map_some]
      simp only [Option.bind_some, List.getElem?_eq_getElem bound]
      refine (Dialogue.reached_call_ok _ assign).trans ?_
      generalize ({ h with
        raw2ledAdjustment := h.raw2ledAdjustment.modifyAdjustment k _ } : Hyperion) = u
      have update : core std clock others .adjustmentsUpdated u =
          ofCall (u.update (clock 0) (clock 1)) := rfl
      cases updated : u.update (clock 0) (clock 1) with
      | ok t =>
        rw [updated] at update
        exact Dialogue.reached_call_ok _ update
      | error thrown =>
        rw [updated, ofCall] at update
        by_cases caught : thrown.fault.isException = true
        · rw [if_pos caught] at update
          simp only [if_pos caught]
          exact Dialogue.reached_call_error _ update
        · rw [if_neg caught] at update
          simp only [if_neg caught]
          exact Dialogue.reached_call_none _ update

end Core

/-- A success, error or info reply. -/
structure IsReply (message : QJsonObject) : Prop where
  command : ∃ command, message.value "command" = some (.string command)
  tan : ∃ tan : Int, message.value "tan" = some (.double tan)
  outcome : message.value "success" = some (.bool true) ∨
    message.value "success" = some (.bool false) ∧
      ∃ error, message.value "error" = some (.string error)

/-- A handler that replies once, or throws before. -/
def Replies (handling : Handling) : Prop := SendsOnce IsReply True handling

theorem replies_ite {condition : Prop} [Decidable condition] {yes no : Handling}
    (ifYes : condition → Replies yes) (ifNo : Replies no) :
    Replies (if condition then yes else no) := by
  split_ifs with holds
  · exact ifYes holds
  · exact ifNo

theorem quiet_request (query : DaemonRequest) : Quiet (request query) := quiet_call query

section Handlers

variable (host : Host) (d : Daemon) (message : QJsonObject) (command : String) (tan : Int)

private theorem quiet_forward : Quiet (forwardJsonMessage d message) := by
  unfold forwardJsonMessage
  split_ifs
  · exact quiet_forM fun slave _ => quiet_request (.forward slave message)
  · exact .done ()

variable {escapes : Prop}

theorem sendSuccessReply_sends : SendsOnce IsReply escapes (sendSuccessReply command tan) :=
  sendsOnce_emit ⟨⟨command, rfl⟩, ⟨tan, rfl⟩, Or.inl rfl⟩

theorem sendErrorReply_sends (error : String) :
    SendsOnce IsReply escapes (sendErrorReply error command tan) :=
  sendsOnce_emit ⟨⟨command, rfl⟩, ⟨tan, rfl⟩, Or.inr ⟨rfl, error, rfl⟩⟩

theorem request_replies {query : DaemonRequest} {next : query.Answer → Handling}
    (replies : ∀ answer, Replies (next answer)) : Replies (request query >>= next) :=
  (quiet_request query).thenSends trivial replies

theorem forward_replies {next : Unit → Handling} (replies : ∀ u, Replies (next u)) :
    Replies (forwardJsonMessage d message >>= next) :=
  (quiet_forward d message).thenSends trivial replies

theorem thenSuccess_replies (query : DaemonRequest) :
    Replies (request query >>= fun _ => sendSuccessReply command tan) :=
  request_replies fun _ => sendSuccessReply_sends command tan

private theorem handleColorCommand_replies {colors : List ColorRgb}
    (filled : colorData d.getLedCount (arrayMember message "color") = some colors) :
    Replies (handleColorCommand d message command tan) := by
  refine forward_replies d message fun _ => ?_
  simp only [filled]
  exact thenSuccess_replies command tan _

theorem handleImageCommand_replies : Replies (handleImageCommand host d message command tan) := by
  refine forward_replies d message fun _ => ?_
  simp only
  split_ifs
  · refine request_replies fun ledColors => ?_
    exact thenSuccess_replies command tan _
  · exact sendErrorReply_sends command tan _

theorem handleEffectCommand_replies : Replies (handleEffectCommand d message command tan) := by
  refine forward_replies d message fun _ => ?_
  simp only
  split_ifs
  · exact thenSuccess_replies command tan _
  · exact thenSuccess_replies command tan _

theorem saveEffect_replies (directory : String) :
    Replies (saveEffect host d message directory command tan) := by
  unfold saveEffect
  simp only
  split_ifs
  · exact sendErrorReply_sends command tan _
  · split
    · exact sendErrorReply_sends command tan _
    · refine request_replies fun _ => ?_
      exact thenSuccess_replies command tan _

theorem handleCreateEffectCommand_replies :
    Replies (handleCreateEffectCommand host d message command tan) := by
  unfold handleCreateEffectCommand
  simp only
  split_ifs
  · exact sendErrorReply_sends command tan _
  · split
    · exact sendErrorReply_sends command tan _
    · split
      · exact sendErrorReply_sends command tan _
      · split
        · exact sendErrorReply_sends command tan _
        · exact saveEffect_replies host d message command tan _
  · exact sendErrorReply_sends command tan _

theorem handleDeleteEffectCommand_replies :
    Replies (handleDeleteEffectCommand d message command tan) := by
  unfold handleDeleteEffectCommand
  simp only
  split_ifs
  · split
    · exact sendErrorReply_sends command tan _
    · split_ifs
      · exact sendErrorReply_sends command tan _
      · refine request_replies fun result => ?_
        cases result with
        | true => exact thenSuccess_replies command tan _
        | false => exact sendErrorReply_sends command tan _
      · exact sendErrorReply_sends command tan _
  · exact sendErrorReply_sends command tan _

private theorem handleServerInfoCommand_replies : Replies (handleServerInfoCommand command tan) :=
  request_replies fun _ => sendsOnce_emit ⟨⟨command, rfl⟩, ⟨tan, rfl⟩, Or.inl rfl⟩

theorem handleClearCommand_replies : Replies (handleClearCommand d message command tan) := by
  refine forward_replies d message fun _ => ?_
  exact thenSuccess_replies command tan _

theorem handleClearallCommand_replies : Replies (handleClearallCommand d message command tan) := by
  refine forward_replies d message fun _ => ?_
  exact thenSuccess_replies command tan _

theorem handleAdjustmentCommand_replies {front : String} {rest : List String}
    (ids : d.getAdjustmentIds = front :: rest)
    (known : (d.getAdjustment
      (stringMember (objectMember message "adjustment") "id" front)).isSome) :
    Replies (handleAdjustmentCommand d message command tan) := by
  obtain ⟨colorAdjustment, found⟩ := Option.isSome_iff_exists.mp known
  simp only [handleAdjustmentCommand, ids, found]
  exact request_replies fun _ => thenSuccess_replies command tan _

theorem handleSourceSelectCommand_replies :
    Replies (handleSourceSelectCommand message command tan) := by
  have answer : ∀ success : Bool, Replies (if success then sendSuccessReply command tan
      else sendErrorReply "setting current priority failed" command tan) := by
    intro success
    cases success with
    | true => exact sendSuccessReply_sends command tan
    | false => exact sendErrorReply_sends command tan _
  unfold handleSourceSelectCommand
  simp only
  split_ifs
  · exact request_replies fun _ => answer true
  · exact request_replies answer
  · exact answer false

theorem handleConfigGetCommand_replies : Replies (handleConfigGetCommand d command tan) := by
  have read : Quiet ((request (.readConfig d.getConfigFileName)).catching fun _ =>
      pure d.getQJsonConfig) := (quiet_request _).catching fun _ => .done _
  exact read.thenSends trivial fun config =>
    sendsOnce_emit ⟨⟨command, rfl⟩, ⟨tan, rfl⟩, Or.inl rfl⟩

theorem handleSchemaGetCommand_replies :
    Replies (handleSchemaGetCommand host d command tan) := by
  unfold handleSchemaGetCommand
  split
  · exact .throw _ trivial
  · split
    · exact .throw _ trivial
    · exact request_replies fun _ => sendsOnce_emit ⟨⟨command, rfl⟩, ⟨tan, rfl⟩, Or.inl rfl⟩

theorem handleConfigCommand_replies :
    Replies (handleConfigCommand host d message command tan) := by
  unfold handleConfigCommand
  simp only
  split_ifs
  · exact handleSchemaGetCommand_replies host d _ tan
  · exact handleConfigGetCommand_replies d _ tan
  · refine request_replies fun _ => ?_
    exact request_replies fun _ => sendErrorReply_sends _ tan _
  · exact sendErrorReply_sends _ tan _

theorem handleComponentStateCommand_replies :
    Replies (handleComponentStateCommand host message command tan) := by
  unfold handleComponentStateCommand
  simp only
  split_ifs
  · exact sendErrorReply_sends command tan _
  · exact thenSuccess_replies command tan _

theorem handleLedColorsCommand_replies : Replies (handleLedColorsCommand message command tan) := by
  unfold handleLedColorsCommand
  simp only
  split_ifs
  · exact request_replies fun _ => thenSuccess_replies _ tan _
  · exact thenSuccess_replies _ tan _
  · exact request_replies fun _ => thenSuccess_replies _ tan _
  · exact thenSuccess_replies _ tan _
  · exact sendErrorReply_sends command tan _

theorem handleLoggingCommand_replies : Replies (handleLoggingCommand d message command tan) := by
  refine request_replies fun _ => ?_
  split_ifs
  · exact sendSuccessReply_sends _ tan
  · exact request_replies fun _ => thenSuccess_replies _ tan _
  · exact thenSuccess_replies _ tan _
  · exact sendSuccessReply_sends _ tan
  · exact sendErrorReply_sends command tan _

private theorem handleProcessingCommand_replies :
    Replies (handleProcessingCommand message command tan) :=
  thenSuccess_replies command tan _

end Handlers

theorem copyBlocks_isSome {ledCount size rounds i : Nat} (data : List ColorRgb)
    (positive : 0 < size ∨ ledCount = 0) (enough : ledCount ≤ i + size + rounds) :
    (copyBlocks ledCount size (rounds + 1) (i, data)).isSome := by
  induction rounds generalizing i data with
  | zero =>
    have stops : ¬ i + size < ledCount := by omega
    simp [copyBlocks, stops]
  | succ rounds ih =>
    rw [copyBlocks]
    split_ifs
    · exact ih (copyFront data i size) (by omega)
    · rfl

theorem colorData_isSome (ledCount : Nat) {jsonColor : List Json} (three : 3 ≤ jsonColor.length) :
    (colorData ledCount jsonColor).isSome := by
  rw [colorData, Option.isSome_map]
  exact copyBlocks_isSome _ (by omega) (by omega)

theorem validate_of_checkJson {host : Host} {message schema : QJsonObject} {name : String}
    (known : JsonSchemas.resource name = some schema)
    (passes : checkJson host message name = .ok ()) :
    QJsonSchemaChecker.validate host.rendering schema message false = true := by
  have loaded : loadSchema host name = .ok schema := by simp [loadSchema, known]
  simp only [checkJson, loaded, bind, Except.bind] at passes
  split_ifs at passes with failed
  rw [QJsonSchemaChecker.validate, Bool.not_eq_true']
  simpa using failed

def colorSchema : Schema :=
  [.additionalProperties false,
    .properties [("color", [.items [.type .integer], .minItems 3, .required true, .type .array]),
      ("command", [.enum [.string "color"], .required true, .type .string]),
      ("duration", [.required false, .type .integer]),
      ("priority", [.maximum 253, .minimum 1, .required true, .type .integer]),
      ("tan", [.type .integer])],
    .required true, .type .object]

private theorem schemaToObject_color : schemaToObject colorSchema = JsonSchemas.color := rfl

theorem three_le_of_checkJson {host : Host} {message : QJsonObject}
    (passes : checkJson host message ":schema-color" = .ok ()) :
    3 ≤ (arrayMember message "color").length := by
  have valid := validate_of_checkJson
    (rfl : JsonSchemas.resource ":schema-color" = some JsonSchemas.color) passes
  rw [← schemaToObject_color, validate_iff] at valid
  obtain ⟨_, ⟨⟨_, present⟩, members, _⟩, _⟩ := valid
  obtain ⟨color, held⟩ := Option.isSome_iff_exists.mp (present "color" _ List.mem_cons_self rfl)
  obtain ⟨_, ⟨_, size⟩, _⟩ := members color held
  have three : (3 : Int) ≤ (color.toArray.length : Int) := size
  have member : arrayMember message "color" = color.toArray := by
    have value : message.value "color" = some color := held
    rw [arrayMember, value, Option.elim_some]
  rw [member]
  omega

/-- The text is a valid message with this command. -/
def IsCommand (host : Host) (messageString command : String) (message : QJsonObject) : Prop :=
  ∃ doc, host.fromJson messageString = .ok doc ∧ message = doc.toObject ∧
    checkMessage host message = .ok () ∧ stringMember message "command" "" = command

/-- The identifier of an `adjustment` object, or else the first one registered,
has an adjustment. -/
def NamesAdjustment (d : Daemon) (message : QJsonObject) : Prop :=
  ∃ front, d.getAdjustmentIds.head? = some front ∧
    (d.getAdjustment (stringMember (objectMember message "adjustment") "id" front)).isSome

theorem handleCommand_replies {host : Host} {d : Daemon} {message : QJsonObject} (tan : Int)
    (passes : checkMessage host message = .ok ())
    (named : stringMember message "command" "" = "adjustment" → NamesAdjustment d message) :
    Replies (handleCommand host d message (stringMember message "command" "") tan) := by
  obtain ⟨_, _, specific⟩ := Execution.bind_eq_ok.mp passes
  generalize stringMember message "command" "" = command at specific named
  unfold handleCommand
  refine replies_ite (fun color => ?_) ?_
  · subst color
    obtain ⟨colors, filled⟩ := Option.isSome_iff_exists.mp
      (colorData_isSome d.getLedCount (three_le_of_checkJson specific))
    exact handleColorCommand_replies d message _ tan filled
  refine replies_ite (fun _ => handleImageCommand_replies host d message command tan) ?_
  refine replies_ite (fun _ => handleEffectCommand_replies d message command tan) ?_
  refine replies_ite (fun _ => handleCreateEffectCommand_replies host d message command tan) ?_
  refine replies_ite (fun _ => handleDeleteEffectCommand_replies d message command tan) ?_
  refine replies_ite (fun _ => handleServerInfoCommand_replies command tan) ?_
  refine replies_ite (fun _ => handleClearCommand_replies d message command tan) ?_
  refine replies_ite (fun _ => handleClearallCommand_replies d message command tan) ?_
  refine replies_ite (fun adjustment => ?_) ?_
  · obtain ⟨front, first, known⟩ := named adjustment
    obtain ⟨rest, ids⟩ := List.head?_eq_some_iff.mp first
    exact handleAdjustmentCommand_replies d message command tan ids known
  refine replies_ite (fun _ => handleSourceSelectCommand_replies message command tan) ?_
  refine replies_ite (fun _ => handleConfigCommand_replies host d message command tan) ?_
  refine replies_ite (fun _ => handleComponentStateCommand_replies host message command tan) ?_
  refine replies_ite (fun _ => handleLedColorsCommand_replies message command tan) ?_
  refine replies_ite (fun _ => handleLoggingCommand_replies d message command tan) ?_
  refine replies_ite (fun _ => handleProcessingCommand_replies message command tan) ?_
  exact sendErrorReply_sends "" 0 _

theorem handleMessage_sends {host : Host} {d : Daemon} {messageString : String}
    (named : ∀ message, IsCommand host messageString "adjustment" message →
      NamesAdjustment d message) :
    SendsOnce IsReply False (handleMessage host d messageString) := by
  unfold handleMessage
  split
  · exact sendErrorReply_sends "" 0 _
  · rename_i doc parsed
    simp only
    split
    · exact sendErrorReply_sends "" 0 _
    · rename_i passes
      refine (handleCommand_replies _ passes fun adjustment => ?_).catching fun what =>
        sendErrorReply_sends "" 0 _
      exact named _ ⟨doc, parsed, rfl, passes, adjustment⟩

theorem handleMessage_silent {σ : Type} {host : Host} {d : Daemon} {messageString : String}
    {message : QJsonObject} (adjusts : IsCommand host messageString "adjustment" message)
    (unknown : ¬ NamesAdjustment d message)
    (surroundings : Dialogue.Surroundings DaemonRequest.Answer σ) (s : σ) :
    sent surroundings (handleMessage host d messageString) s = [] := by
  obtain ⟨doc, parsed, rfl, passes, adjustment⟩ := adjusts
  simp only [handleMessage, parsed, passes, adjustment]
  change sent surroundings (Dialogue.catching (handleAdjustmentCommand d doc.toObject _ _) _) s = []
  unfold handleAdjustmentCommand
  cases ids : d.getAdjustmentIds with
  | nil => rfl
  | cons front rest =>
    cases found : d.getAdjustment
        (stringMember (objectMember doc.toObject "adjustment") "id" front) with
    | none =>
      simp only [found]
      rfl
    | some colorAdjustment => exact absurd ⟨front, by simp [ids], by simp [found]⟩ unknown

/-- A text is answered exactly once if and only if an adjustment command names an
adjustment and everything the handling asks of the daemon comes back. -/
theorem repliesOnce_iff {σ : Type} (host : Host) (view : σ → Daemon)
    (surroundings : Dialogue.Surroundings DaemonRequest.Answer σ) (s : σ) (messageString : String) :
    (∃ reply, IsReply reply ∧
        sent surroundings (handleMessage host (view s) messageString) s = [reply]) ↔
      (∀ message, IsCommand host messageString "adjustment" message →
        NamesAdjustment (view s) message) ∧
      Answered surroundings (handleMessage host (view s) messageString) s := by
  by_cases named : ∀ message, IsCommand host messageString "adjustment" message →
      NamesAdjustment (view s) message
  · rw [(handleMessage_sends named).sent_iff]
    exact (and_iff_right named).symm
  · push Not at named
    obtain ⟨message, adjusts, unknown⟩ := named
    rw [handleMessage_silent adjusts unknown]
    constructor
    · rintro ⟨_, _, none⟩
      exact absurd none nofun
    · rintro ⟨named, _⟩
      exact absurd (named message adjusts) unknown

def Host.ofMessage (text : String) (doc : Json) : Host where
  fromJson messageString :=
    if messageString = text then .ok doc else .error ⟨0, "illegal value"⟩
  readAll _ := .error "No such file or directory"
  fromBase64 _ := ⟨[], by decide⟩
  toUpper component := component
  qrand _ := 0
  rendering := .blank

def noFiles : FileSystem where
  fileExists _ := false
  absoluteFilePath path := path
  maxLength := 0
  length_le _ := nofun

def unknownAdjustment : String :=
  "\x7b\"adjustment\":\x7b\"id\":\"nope\"\x7d,\"command\":\"adjustment\"\x7d"

def unknownAdjustmentMessage : QJsonObject :=
  [("adjustment", .object [("id", .string "nope")]), ("command", .string "adjustment")]

/-- A started daemon leaves the command unanswered. -/
theorem unknownAdjustment_unanswered : ∃ h₀ : Hyperion,
    Hyperion.new .stable (.ofLeds [{ index := 0 }]) 0 0 0 = .ok h₀ ∧
    ¬ ∃ reply, IsReply reply ∧
      sent (core .natural (fun _ => 0) fun _ h => some (.error "", h))
        (handleMessage (.ofMessage unknownAdjustment (.object unknownAdjustmentMessage))
          (view { files := noFiles } h₀) unknownAdjustment) h₀ = [reply] := by
  have returns : Execution.returnsWith (Hyperion.new .stable (.ofLeds [{ index := 0 }]) 0 0 0)
      (fun h => h.raw2ledAdjustment.getAdjustment "nope" = none) = true := by decide +kernel
  obtain ⟨h₀, constructed, unknown⟩ := Execution.exists_of_returnsWith returns
  have adjusts : IsCommand (.ofMessage unknownAdjustment (.object unknownAdjustmentMessage))
      unknownAdjustment "adjustment" unknownAdjustmentMessage :=
    ⟨.object unknownAdjustmentMessage, by simp [Host.ofMessage], rfl, by rfl, rfl⟩
  have unnamed : ¬ NamesAdjustment (view { files := noFiles } h₀) unknownAdjustmentMessage := by
    rintro ⟨front, _, known⟩
    change Option.isSome (Option.bind (h₀.raw2ledAdjustment.getAdjustment "nope") _) = true at known
    rw [of_decide_eq_true unknown] at known
    exact absurd known nofun
  refine ⟨h₀, constructed, ?_⟩
  rw [handleMessage_silent adjusts unnamed]
  rintro ⟨_, _, none⟩
  exact absurd none nofun

end HyperionNg.JsonCommands
