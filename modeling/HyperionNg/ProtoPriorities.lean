import HyperionNg.EffectRegister
import HyperionNg.ProtoReplies

/-! The entry of a proto connection in the register of source names, over every
run of its requests. The connection registers a priority that differs from its
last one, the register keeps an entry it has, and only a `CLEAR` takes it out. -/

namespace HyperionNg

open Library Library.Execution

inductive ProtoRequest
  | sets (priority : Int)
  | refused (priority : Int)
  | clears (priority : Int)
  | clearsAll
  | incomplete
deriving DecidableEq

def ImageMessage.asks (part : ImageMessage) : ProtoRequest :=
  if ProtoClientConnection.sizeMatches part.imagewidth part.imageheight part.imagedata then
    .sets part.priority
  else .refused part.priority

theorem ImageMessage.asks_cases (part : ImageMessage) :
    part.asks = .sets part.priority ∨ part.asks = .refused part.priority := by
  unfold asks
  split_ifs
  · exact Or.inl rfl
  · exact Or.inr rfl

def Proto.HyperionRequest.asks (message : Proto.HyperionRequest) : ProtoRequest :=
  match message.getCommand with
  | .color => message.colorRequest.elim .incomplete fun part => .sets part.priority
  | .image => message.imageRequest.elim .incomplete ImageMessage.asks
  | .clear => message.clearRequest.elim .incomplete fun part => .clears part.priority
  | .clearall => .clearsAll

namespace ProtoRequest

def priority (last : Int) : ProtoRequest → Int
  | sets p => p
  | refused p => p
  | clears p => p
  | clearsAll => last
  | incomplete => last

def succeeds : ProtoRequest → Bool
  | sets _ => true
  | refused _ => false
  | clears _ => true
  | clearsAll => true
  | incomplete => false

def keeps (entry : Option Int) : ProtoRequest → Option Int
  | clears _ => none
  | _ => entry

end ProtoRequest

namespace ProtoSession

variable {s t : ProtoSession} {clock : Nat → Int}

def entry (s : ProtoSession) : Option Int :=
  s.hyperion.priorityRegister.find? s.priorityChannelName

structure Handles (s : ProtoSession) (asked : ProtoRequest) (t : ProtoSession) : Prop where
  name : t.priorityChannelName = s.priorityChannelName
  priority : t.priority = asked.priority s.priority
  entry : t.entry = asked.keeps s.entry
  reply : ∃ reply, t.replies = s.replies ++ [reply] ∧ (reply = successReply ↔ asked.succeeds = true)

private theorem errorReply_ne (error : String) : errorReply error ≠ successReply := by
  simp [errorReply, successReply]

theorem handles_error {asked : ProtoRequest} (fails : asked.succeeds = false)
    (priority : s.priority = asked.priority s.priority) (entry : s.entry = asked.keeps s.entry)
    (error : String) : s.Handles asked (s.sendErrorReply error) where
  name := rfl
  priority := priority
  entry := entry
  reply := ⟨errorReply error, rfl, iff_of_false (errorReply_ne error) (by simp [fails])⟩

theorem call_ok {result : Except (Thrown Fault Hyperion) Hyperion}
    (ok : s.call result = .ok t) : ∃ hyperion, result = .ok hyperion ∧ t = { s with hyperion } := by
  cases result with
  | ok hyperion => exact ⟨hyperion, rfl, (Except.ok.inj ok).symm⟩
  | error thrown => exact absurd ok nofun

theorem handleColorCommand_handles {message : Proto.ColorRequest}
    (ok : s.handleColorCommand clock message = .ok t) :
    s.Handles (.sets message.priority) t := by
  obtain ⟨u, called, done⟩ := bind_eq_ok.mp ok
  obtain ⟨hyperion, set, rfl⟩ := call_ok called
  have register := (Hyperion.setColors_ends_effects (Or.inl set)).1
  rw [← Except.ok.inj done]
  exact ⟨rfl, rfl, congrArg (SortedMap.find? · s.priorityChannelName) register,
    _, rfl, iff_of_true rfl rfl⟩

theorem perform_keeps {request : HyperionRequest} (ok : s.perform clock request = .ok t) :
    t.hyperion.priorityRegister = s.hyperion.priorityRegister ∧
      t.priorityChannelName = s.priorityChannelName ∧ t.priority = s.priority ∧
      t.replies = s.replies := by
  cases request with
  | setColors priority ledColors duration =>
    obtain ⟨hyperion, set, rfl⟩ := call_ok ok
    exact ⟨(Hyperion.setColors_ends_effects (Or.inl set)).1, rfl, rfl, rfl⟩
  | setImage priority image duration =>
    rw [Except.ok.inj ok]
    exact ⟨rfl, rfl, rfl, rfl⟩

theorem performs_keeps {requests : List HyperionRequest}
    (ok : requests.foldlM (perform clock) s = .ok t) :
    t.hyperion.priorityRegister = s.hyperion.priorityRegister ∧
      t.priorityChannelName = s.priorityChannelName ∧ t.priority = s.priority ∧
      t.replies = s.replies := by
  have run : Reaches (perform clock) s requests t := ok
  refine run.invariant (I := fun u => u.hyperion.priorityRegister = s.hyperion.priorityRegister ∧
    u.priorityChannelName = s.priorityChannelName ∧ u.priority = s.priority ∧
    u.replies = s.replies) (fun u a v before step => ?_) ⟨rfl, rfl, rfl, rfl⟩
  obtain ⟨register, name, priority, replies⟩ := perform_keeps step
  exact ⟨register.trans before.1, name.trans before.2.1, priority.trans before.2.2.1,
    replies.trans before.2.2.2⟩

theorem handleImageCommand_reply {build : Build} {processor processor' : ImageProcessor}
    {m : ImageMessage} {reply : ImageReply} {requests : List HyperionRequest}
    (ok : ProtoClientConnection.handleImageCommand build processor m =
      .ok (reply, processor', requests)) :
    reply = if ProtoClientConnection.sizeMatches m.imagewidth m.imageheight m.imagedata
      then .success else sizeError := by
  unfold ProtoClientConnection.handleImageCommand at ok
  split_ifs at ok ⊢ with fits
  · obtain ⟨_, _, done⟩ := bind_eq_ok.mp ok
    exact (congrArg Prod.fst (Except.ok.inj done)).symm
  · exact (congrArg Prod.fst (Except.ok.inj ok)).symm

theorem handleImageCommand_handles {build : Build} {message : ImageMessage}
    (ok : s.handleImageCommand build clock message = .ok t) :
    s.Handles message.asks t := by
  obtain ⟨⟨reply, imageProcessor, requests⟩, handled, ok⟩ := bind_eq_ok.mp ok
  obtain ⟨u, performed, done⟩ := bind_eq_ok.mp ok
  have answer := handleImageCommand_reply (mapError_eq_ok.mp handled)
  obtain ⟨register, name, priority, replies⟩ := performs_keeps performed
  have entry : u.entry = s.entry := by
    rw [ProtoSession.entry, register, name]
    rfl
  unfold ImageMessage.asks
  split_ifs at answer ⊢ with fits
  · rw [answer] at done
    rw [← Except.ok.inj done]
    refine ⟨name, priority, entry, successReply, ?_, iff_of_true rfl rfl⟩
    rw [sendSuccessReply, sendMessage, replies]
  · rw [answer] at done
    rw [← Except.ok.inj done]
    have error := errorReply_ne "Size of image data does not match with the width and height"
    refine ⟨name, priority, entry, _, ?_, iff_of_false error Bool.false_ne_true⟩
    rw [sendErrorReply, sendMessage, replies]

theorem handleClearCommand_handles {message : Proto.ClearRequest}
    (ok : s.handleClearCommand clock message = .ok t) :
    s.Handles (.clears message.priority) t := by
  obtain ⟨u, called, done⟩ := bind_eq_ok.mp ok
  obtain ⟨hyperion, cleared, rfl⟩ := call_ok called
  rw [← Except.ok.inj done]
  have erased : (hyperion.unRegisterPriority s.priorityChannelName).priorityRegister.find?
      s.priorityChannelName = none := by
    rw [Hyperion.unRegisterPriority, SortedMap.find?_erase, if_pos rfl]
  exact ⟨rfl, rfl, erased, _, rfl, iff_of_true rfl rfl⟩

theorem handleClearallCommand_handles (ok : s.handleClearallCommand clock = .ok t) :
    s.Handles .clearsAll t := by
  obtain ⟨u, called, done⟩ := bind_eq_ok.mp ok
  obtain ⟨hyperion, cleared, rfl⟩ := call_ok called
  have register := (Hyperion.clearall_ends_effects (Or.inl cleared)).1
  rw [← Except.ok.inj done]
  exact ⟨rfl, rfl, congrArg (SortedMap.find? · s.priorityChannelName) register,
    _, rfl, iff_of_true rfl rfl⟩

theorem elim_handles {α : Type} {part : Option α} {error : String}
    {handle : α → Except ProtoFault ProtoSession} {asked : α → ProtoRequest}
    (handles : ∀ message, handle message = .ok t → s.Handles (asked message) t)
    (ok : part.elim (.ok (s.sendErrorReply error)) handle = .ok t) :
    s.Handles (part.elim .incomplete asked) t := by
  cases part with
  | none =>
    have fails : ProtoRequest.incomplete.succeeds = false := rfl
    exact Except.ok.inj ok ▸ handles_error fails rfl rfl error
  | some message => exact handles message ok

theorem dispatch_handles {build : Build} {message : Proto.HyperionRequest}
    (ok : s.dispatch build clock message = .ok t) : s.Handles message.asks t := by
  unfold dispatch at ok
  unfold Proto.HyperionRequest.asks
  cases command : message.getCommand with
  | color =>
    rw [command] at ok
    exact elim_handles (fun _ => handleColorCommand_handles) ok
  | image =>
    rw [command] at ok
    exact elim_handles (fun _ => handleImageCommand_handles) ok
  | clear =>
    rw [command] at ok
    exact elim_handles (fun _ => handleClearCommand_handles) ok
  | clearall =>
    rw [command] at ok
    exact handleClearallCommand_handles ok

theorem handleMessage_entry {build : Build} {message : Proto.HyperionRequest}
    (ok : s.handleMessage build clock message = .ok t) :
    t.priorityChannelName = s.priorityChannelName ∧
    t.priority = message.asks.priority s.priority ∧
    t.entry = (if s.priority ≠ message.asks.priority s.priority then
      some ((message.asks.keeps s.entry).getD (message.asks.priority s.priority))
      else message.asks.keeps s.entry) ∧
    ∃ reply, t.replies = s.replies ++ [reply] ∧
      (reply = successReply ↔ message.asks.succeeds = true) := by
  obtain ⟨u, dispatched, done⟩ := bind_eq_ok.mp ok
  obtain ⟨name, priority, entry, replies⟩ := dispatch_handles dispatched
  have last : u.priority = message.asks.priority s.priority := priority
  have kept : u.entry = message.asks.keeps s.entry := entry
  rw [← Except.ok.inj done, ← last, ← kept]
  split_ifs with changed
  · refine ⟨name, rfl, ?_, replies⟩
    rw [registerPriority, ProtoSession.entry, Hyperion.registerPriority, SortedMap.find?_emplace,
      if_pos rfl]
    rfl
  · exact ⟨name, rfl, rfl, replies⟩

/-- What the rest of the daemon does to the core; the entry of the connection is
not its to change. -/
def elsewhere (s : ProtoSession) (hyperion : Hyperion) : ProtoSession :=
  { s with hyperion := { hyperion with
      priorityRegister := hyperion.priorityRegister.set s.priorityChannelName s.entry } }

@[simp] theorem elsewhere_entry (s : ProtoSession) (hyperion : Hyperion) :
    (s.elsewhere hyperion).entry = s.entry := SortedMap.find?_set _ _ _

@[simp] theorem socketClosed_entry (s : ProtoSession) : s.socketClosed.entry = none := by
  rw [socketClosed, ProtoSession.entry, Hyperion.unRegisterPriority, SortedMap.find?_erase,
    if_pos rfl]

/-- The steps on which the register follows the requests: the registered
priority is set again, or a new one that is not the last one where nothing is
registered; it is cleared while it is the last one; a refused image finds an
entry or the last priority, and `CLEARALL` no entry. -/
def Follows (s : ProtoSession) : ProtoRequest → Prop
  | .sets p => s.entry = some p ∨ (s.entry = none ∧ s.priority ≠ p)
  | .refused p => s.entry ≠ none ∨ s.priority = p
  | .clears p => s.priority = p ∧ (s.entry = none ∨ s.entry = some p)
  | .clearsAll => s.entry = none
  | .incomplete => True

end ProtoSession

structure ProtoRegistration where
  session : ProtoSession
  expected : Option Int := none

namespace ProtoRegistration

inductive Event
  | request (message : Proto.HyperionRequest) (clock : Nat → Int)
  | elsewhere (hyperion : Hyperion)
  | disconnected

/-- The priority of the last successful `COLOR` or `IMAGE`, until it is cleared. -/
def expects (expected : Option Int) (message : Proto.HyperionRequest) (succeeded : Bool) :
    Option Int :=
  match message.getCommand with
  | .color => if succeeded then message.colorRequest.map (·.priority) else expected
  | .image => if succeeded then message.imageRequest.map (·.priority) else expected
  | .clear => if message.clearRequest.map (·.priority) = expected then none else expected
  | .clearall => none

def step (build : Build) (r : ProtoRegistration) : Event → Except ProtoFault ProtoRegistration
  | .request message clock => do
    let session ← r.session.handleMessage build clock message
    let succeeded := session.replies.getLast? = some ProtoSession.successReply
    pure ⟨session, expects r.expected message succeeded⟩
  | .elsewhere hyperion => .ok { r with session := r.session.elsewhere hyperion }
  | .disconnected => .ok ⟨r.session.socketClosed, none⟩

/-- The name is registered with the expected priority, or not at all. -/
def Registered (r : ProtoRegistration) : Prop := r.session.entry = r.expected

def Meets (r : ProtoRegistration) : Event → Prop
  | .request message _ => r.session.Follows message.asks
  | .elsewhere _ => True
  | .disconnected => True

theorem expects_eq (expected : Option Int) (message : Proto.HyperionRequest) :
    expects expected message message.asks.succeeds =
      match message.asks with
      | .sets p => some p
      | .refused _ => expected
      | .clears p => if some p = expected then none else expected
      | .clearsAll => none
      | .incomplete => expected := by
  unfold expects Proto.HyperionRequest.asks
  cases message.getCommand with
  | color => cases message.colorRequest <;> simp [ProtoRequest.succeeds]
  | image =>
    cases message.imageRequest with
    | none => simp [ProtoRequest.succeeds]
    | some part =>
      rw [Option.elim_some, Option.map_some]
      rcases part.asks_cases with asks | asks
      · rw [asks]
        rfl
      · rw [asks]
        rfl
  | clear =>
    cases message.clearRequest with
    | none => cases expected <;> simp
    | some part => simp
  | clearall => rfl

theorem step_registered_iff {build : Build} {r t : ProtoRegistration} {event : Event}
    (registered : r.Registered) (ok : r.step build event = .ok t) :
    t.Registered ↔ r.Meets event := by
  unfold Registered at registered ⊢
  cases event with
  | request message clock =>
    obtain ⟨session, handled, done⟩ := bind_eq_ok.mp ok
    obtain ⟨_, _, entry, reply, replies, success⟩ := ProtoSession.handleMessage_entry handled
    have last : decide (session.replies.getLast? = some ProtoSession.successReply) =
        message.asks.succeeds := by
      rw [Bool.eq_iff_iff, decide_eq_true_eq, replies, List.getLast?_concat, Option.some.injEq]
      exact success
    rw [← Except.ok.inj done, last, expects_eq, entry, Meets, ← registered]
    cases message.asks with
    | sets p =>
      simp only [ProtoRequest.priority, ProtoRequest.keeps, ProtoSession.Follows]
      cases r.session.entry with
      | none => by_cases same : r.session.priority = p <;> simp [same]
      | some q => by_cases same : r.session.priority = p <;> simp [same]
    | refused p =>
      simp only [ProtoRequest.priority, ProtoRequest.keeps, ProtoSession.Follows]
      cases r.session.entry with
      | none => by_cases same : r.session.priority = p <;> simp [same]
      | some q => by_cases same : r.session.priority = p <;> simp [same]
    | clears p =>
      simp only [ProtoRequest.priority, ProtoRequest.keeps, ProtoSession.Follows]
      cases r.session.entry with
      | none => by_cases same : r.session.priority = p <;> simp [same]
      | some q =>
        by_cases same : r.session.priority = p
        · by_cases own : p = q <;> simp [same, own, eq_comm]
        · by_cases own : p = q <;> simp [same, own]
    | clearsAll => simp [ProtoRequest.priority, ProtoRequest.keeps, ProtoSession.Follows]
    | incomplete => simp [ProtoRequest.priority, ProtoRequest.keeps, ProtoSession.Follows]
  | elsewhere hyperion =>
    rw [← Except.ok.inj ok]
    exact iff_of_true ((ProtoSession.elsewhere_entry _ _).trans registered) trivial
  | disconnected =>
    rw [← Except.ok.inj ok]
    exact iff_of_true (ProtoSession.socketClosed_entry _) trivial

/-- In every run of requests the name is registered as expected, from the start
on and after every step, exactly when it is not registered at the start and
every step that returns meets the condition. -/
theorem registered_throughout_iff (build : Build) (session : ProtoSession)
    (events : List Event) :
    Throughout (step build) Registered ⟨session, none⟩ events ↔
      session.entry = none ∧ Along (step build)
        (fun r event => ∀ t, r.step build event = .ok t → r.Meets event)
        ⟨session, none⟩ events := by
  by_cases absent : session.entry = none
  · rw [and_iff_right absent]
    refine throughout_iff_along (I := fun _ => True) (fun _ _ _ _ _ => trivial) ?_ trivial absent
    intro r event t _ registered ok
    exact step_registered_iff registered ok
  · exact iff_of_false (fun throughout => absent throughout.1) fun both => absent both.1

def colorRequest (priority : Int) : Event :=
  .request { command := some .color, colorRequest := some { priority } } fun _ => 0

/-- The second colour leaves the name registered with the priority of the first. -/
theorem second_priority_not_registered : ∃ t,
    Reaches (step ⟨true, 32, by decide⟩) ⟨freshConnection.session, none⟩
      [colorRequest 1, colorRequest 2] t ∧
    freshConnection.session.entry = none ∧ t.session.entry = some 1 ∧ t.expected = some 2 ∧
    ¬ t.Registered := by
  have computed : returnsWith ([colorRequest 1, colorRequest 2].foldlM
      (step ⟨true, 32, by decide⟩) ⟨freshConnection.session, none⟩)
      (fun t => t.session.entry = some 1 && t.expected = some 2) = true := rfl
  obtain ⟨t, run, ends⟩ := exists_of_returnsWith computed
  obtain ⟨entry, expected⟩ := Bool.and_eq_true_iff.mp ends
  have first : t.session.entry = some 1 := of_decide_eq_true entry
  have second : t.expected = some 2 := of_decide_eq_true expected
  refine ⟨t, run, rfl, first, second, ?_⟩
  rw [Registered, first, second]
  decide

end ProtoRegistration

end HyperionNg
