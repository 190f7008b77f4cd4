import HyperionNg.JsonCommands

/-! What the commands have to do with the files of the effects: two of them write
or remove one, and none of the others asks for anything of the kind. -/

namespace HyperionNg

open Library

namespace JsonCommands

/-! The requests of the other commands. -/

def DaemonRequest.onEffects : DaemonRequest → Bool
  | writeJson .. | remove .. | reloadEffects => true
  | _ => false

def Leaves (handling : Handling) : Prop := handling.Asks fun query => query.onEffects = false

section Leaves

variable (host : Host) (d : Daemon) (message : QJsonObject) (command : String) (tan : Int)

private theorem request_asks {query : DaemonRequest} (other : query.onEffects = false) :
    (request query).Asks fun query => query.onEffects = false := Dialogue.asks_call other

theorem request_leaves {query : DaemonRequest} (other : query.onEffects = false)
    {next : query.Answer → Handling} (leaves : ∀ answer, Leaves (next answer)) :
    Leaves (request query >>= next) := (request_asks other).bind leaves

theorem sendMessage_leaves (reply : QJsonObject) : Leaves (sendMessage reply) :=
  .send reply (.done ())

theorem sendSuccessReply_leaves : Leaves (sendSuccessReply command tan) := sendMessage_leaves _

theorem sendErrorReply_leaves (error : String) : Leaves (sendErrorReply error command tan) :=
  sendMessage_leaves _

theorem thenSuccess_leaves {query : DaemonRequest} (other : query.onEffects = false) :
    Leaves (request query >>= fun _ => sendSuccessReply command tan) :=
  request_leaves other fun _ => sendSuccessReply_leaves command tan

theorem forward_leaves {next : Unit → Handling} (leaves : ∀ u, Leaves (next u)) :
    Leaves (forwardJsonMessage d message >>= next) := by
  refine Dialogue.Asks.bind ?_ leaves
  refine Dialogue.asks_ite (Dialogue.asks_forM fun slave => Dialogue.asks_call rfl) (.done ())

private theorem handleColorCommand_leaves : Leaves (handleColorCommand d message command tan) := by
  refine forward_leaves d message fun _ => ?_
  split
  · exact .lost
  · exact thenSuccess_leaves command tan rfl

theorem handleImageCommand_leaves : Leaves (handleImageCommand host d message command tan) := by
  refine forward_leaves d message fun _ => ?_
  refine Dialogue.asks_ite ?_ (sendErrorReply_leaves command tan _)
  exact request_leaves rfl fun _ => thenSuccess_leaves command tan rfl

theorem handleEffectCommand_leaves : Leaves (handleEffectCommand d message command tan) := by
  refine forward_leaves d message fun _ => ?_
  exact Dialogue.asks_ite (thenSuccess_leaves command tan rfl) (thenSuccess_leaves command tan rfl)

private theorem handleServerInfoCommand_leaves : Leaves (handleServerInfoCommand command tan) :=
  request_leaves rfl fun _ => sendMessage_leaves _

private theorem handleClearCommand_leaves : Leaves (handleClearCommand d message command tan) :=
  forward_leaves d message fun _ => thenSuccess_leaves command tan rfl

theorem handleClearallCommand_leaves : Leaves (handleClearallCommand d message command tan) :=
  forward_leaves d message fun _ => thenSuccess_leaves command tan rfl

theorem handleAdjustmentCommand_leaves :
    Leaves (handleAdjustmentCommand d message command tan) := by
  unfold handleAdjustmentCommand
  simp only
  split
  · exact .lost
  · split
    · exact .done ()
    · exact request_leaves rfl fun _ => thenSuccess_leaves command tan rfl

theorem handleSourceSelectCommand_leaves :
    Leaves (handleSourceSelectCommand message command tan) := by
  have answer : ∀ success : Bool, Leaves (if success then sendSuccessReply command tan
      else sendErrorReply "setting current priority failed" command tan) := fun success =>
    Dialogue.asks_ite (sendSuccessReply_leaves command tan) (sendErrorReply_leaves command tan _)
  unfold handleSourceSelectCommand
  simp only
  split_ifs
  · exact request_leaves rfl fun _ => answer true
  · exact request_leaves rfl answer
  · exact answer false

theorem handleConfigCommand_leaves :
    Leaves (handleConfigCommand host d message command tan) := by
  refine Dialogue.asks_ite ?_ (Dialogue.asks_ite ?_ (Dialogue.asks_ite ?_ ?_))
  · unfold handleSchemaGetCommand
    split
    · exact .throw _
    · split
      · exact .throw _
      · exact request_leaves rfl fun _ => sendMessage_leaves _
  · exact ((request_asks rfl).catching fun _ => .done _).bind fun _ => sendMessage_leaves _
  · exact request_leaves rfl fun _ => request_leaves rfl fun _ => sendErrorReply_leaves _ tan _
  · exact sendErrorReply_leaves _ tan _

private theorem handleComponentStateCommand_leaves :
    Leaves (handleComponentStateCommand host message command tan) :=
  Dialogue.asks_ite (sendErrorReply_leaves command tan _) (thenSuccess_leaves command tan rfl)

theorem handleLedColorsCommand_leaves : Leaves (handleLedColorsCommand message command tan) := by
  refine Dialogue.asks_ite ?_
    (Dialogue.asks_ite ?_ (Dialogue.asks_ite ?_ (Dialogue.asks_ite ?_ ?_)))
  · exact request_leaves rfl fun _ => thenSuccess_leaves _ tan rfl
  · exact thenSuccess_leaves _ tan rfl
  · exact request_leaves rfl fun _ => thenSuccess_leaves _ tan rfl
  · exact thenSuccess_leaves _ tan rfl
  · exact sendErrorReply_leaves command tan _

theorem handleLoggingCommand_leaves : Leaves (handleLoggingCommand d message command tan) := by
  refine request_leaves rfl fun _ => Dialogue.asks_ite (Dialogue.asks_ite ?_ ?_)
    (Dialogue.asks_ite (Dialogue.asks_ite ?_ ?_) (sendErrorReply_leaves command tan _))
  · exact sendSuccessReply_leaves _ tan
  · exact request_leaves rfl fun _ => thenSuccess_leaves _ tan rfl
  · exact thenSuccess_leaves _ tan rfl
  · exact sendSuccessReply_leaves _ tan

theorem handleProcessingCommand_leaves : Leaves (handleProcessingCommand message command tan) :=
  thenSuccess_leaves command tan rfl

theorem handleCommand_leaves (notCreate : command ≠ "create-effect")
    (notDelete : command ≠ "delete-effect") :
    Leaves (handleCommand host d message command tan) := by
  unfold handleCommand
  rw [if_neg notCreate, if_neg notDelete]
  exact Dialogue.asks_ite (handleColorCommand_leaves ..) <|
    Dialogue.asks_ite (handleImageCommand_leaves ..) <|
    Dialogue.asks_ite (handleEffectCommand_leaves ..) <|
    Dialogue.asks_ite (handleServerInfoCommand_leaves ..) <|
    Dialogue.asks_ite (handleClearCommand_leaves ..) <|
    Dialogue.asks_ite (handleClearallCommand_leaves ..) <|
    Dialogue.asks_ite (handleAdjustmentCommand_leaves ..) <|
    Dialogue.asks_ite (handleSourceSelectCommand_leaves ..) <|
    Dialogue.asks_ite (handleConfigCommand_leaves ..) <|
    Dialogue.asks_ite (handleComponentStateCommand_leaves ..) <|
    Dialogue.asks_ite (handleLedColorsCommand_leaves ..) <|
    Dialogue.asks_ite (handleLoggingCommand_leaves ..) <|
    Dialogue.asks_ite (handleProcessingCommand_leaves ..) (sendErrorReply_leaves ..)

/-! The two commands themselves. -/

theorem handleCommand_createEffect : handleCommand host d message "create-effect" tan =
    handleCreateEffectCommand host d message "create-effect" tan := by
  simp [handleCommand]

theorem handleCommand_deleteEffect : handleCommand host d message "delete-effect" tan =
    handleDeleteEffectCommand d message "delete-effect" tan := by
  simp [handleCommand]

def savedObject (message : QJsonObject) : QJsonObject :=
  [("args", .object (objectMember message "args")),
    ("name", .string (stringMember message "name" "")),
    ("script", .string (stringMember message "script" ""))]

theorem handleCreateEffectCommand_cases :
    (∃ error, handleCreateEffectCommand host d message command tan =
      sendErrorReply error command tan) ∨
    ∃ directory rest schema path,
      arrayMember (objectMember d.getQJsonConfig "effects") "paths" = directory :: rest ∧
      schema ∈ d.getEffectSchemas ∧
      schema.pyFile = schemaScript (stringMember message "script" "") ∧
      newFileName host d (directory.toString "") (stringMember message "name" "") = some path ∧
      handleCreateEffectCommand host d message command tan = (do
        let _ ← request (.writeJson (d.files.absoluteFilePath path) (savedObject message))
        let _ ← request .reloadEffects
        sendSuccessReply command tan) := by
  unfold handleCreateEffectCommand
  simp only
  split_ifs
  · exact Or.inl ⟨_, rfl⟩
  · cases found :
      d.getEffectSchemas.find? (·.pyFile = schemaScript (stringMember message "script" "")) with
    | none => exact Or.inl ⟨_, rfl⟩
    | some schema =>
      simp only
      cases checkJson host (objectMember message "args") schema.schemaFile with
      | error errors => exact Or.inl ⟨_, rfl⟩
      | ok _ =>
        simp only
        cases paths : arrayMember (objectMember d.getQJsonConfig "effects") "paths" with
        | nil => exact Or.inl ⟨_, rfl⟩
        | cons directory rest =>
          simp only [saveEffect]
          split_ifs
          · exact Or.inl ⟨_, rfl⟩
          · cases file :
              newFileName host d (directory.toString "") (stringMember message "name" "") with
            | none => exact Or.inl ⟨_, rfl⟩
            | some path =>
              exact Or.inr ⟨directory, rest, schema, path, rfl, List.mem_of_find?_eq_some found,
                by simpa using List.find?_some found, file, rfl⟩
  · exact Or.inl ⟨_, rfl⟩

theorem handleDeleteEffectCommand_cases :
    (∃ error, handleDeleteEffectCommand d message command tan = sendErrorReply error command tan) ∨
    ∃ effect error,
      d.getEffects.find? (·.name = stringMember message "name" "") = some effect ∧
      handleDeleteEffectCommand d message command tan = (do
        let result : Bool ← request (.remove (d.files.absoluteFilePath effect.file))
        if result then
          let _ ← request .reloadEffects
          sendSuccessReply command tan
        else sendErrorReply error command tan) := by
  unfold handleDeleteEffectCommand
  simp only
  split_ifs
  · cases found : d.getEffects.find? (·.name = stringMember message "name" "") with
    | none => exact Or.inl ⟨_, rfl⟩
    | some effect =>
      simp only
      split_ifs
      · exact Or.inl ⟨_, rfl⟩
      · exact Or.inr ⟨effect, _, rfl, rfl⟩
      · exact Or.inl ⟨_, rfl⟩
  · exact Or.inl ⟨_, rfl⟩

end Leaves

end JsonCommands

end HyperionNg
