import HyperionNg.Hyperion
import HyperionNg.ProtoMessages

/-! A connection of the proto server: the buffer, and the session its messages
act on. One read takes at most one message out of the buffer. -/

namespace HyperionNg

open Library Library.Execution

inductive ProtoFault
  | image (fault : ImageFault)
  | hyperion (fault : Fault)

/-- `newMessages` are the messages announced by the signal, and `replies` the
messages written, each serialised behind its size. -/
structure ProtoSession where
  hyperion : Hyperion
  imageProcessor : ImageProcessor
  priority : Int := -1
  priorityChannelName : String
  newMessages : List Proto.HyperionRequest := []
  replies : List Proto.HyperionReply := []

/-- `qRed`, `qGreen` and `qBlue` of an `int32`. -/
def qRgb (rgb : Int) : ColorRgb where
  red := UInt8.ofNat (unsigned rgb / 2 ^ 16)
  green := UInt8.ofNat (unsigned rgb / 2 ^ 8)
  blue := UInt8.ofNat (unsigned rgb)

namespace ProtoSession

def sendMessage (s : ProtoSession) (message : Proto.HyperionReply) : ProtoSession :=
  { s with replies := s.replies ++ [message] }

def successReply : Proto.HyperionReply := { type := some .reply, success := some true }

def errorReply (error : String) : Proto.HyperionReply :=
  { type := some .reply, success := some false, error := some error }

def sendSuccessReply (s : ProtoSession) : ProtoSession := s.sendMessage successReply

def sendErrorReply (s : ProtoSession) (error : String) : ProtoSession :=
  s.sendMessage (errorReply error)

def grabbingReply (mode : GrabbingMode) : Proto.HyperionReply :=
  { type := some .grabbing, grabbing := some mode.toInt }

def videoReply (videoMode : VideoMode) : Proto.HyperionReply :=
  { type := some .video, grabbing := some videoMode.toInt }

def setGrabbingMode (s : ProtoSession) (mode : GrabbingMode) : ProtoSession :=
  s.sendMessage (grabbingReply mode)

def setVideoMode (s : ProtoSession) (videoMode : VideoMode) : ProtoSession :=
  s.sendMessage (videoReply videoMode)

/-- A call into the core; what it throws leaves the slot. -/
def call (s : ProtoSession) (result : Except (Thrown Fault Hyperion) Hyperion) :
    Except ProtoFault ProtoSession :=
  match result with
  | .ok hyperion => .ok { s with hyperion }
  | .error thrown => .error (.hyperion thrown.fault)

/-- `setImage` only emits a signal. -/
def perform (clock : Nat → Int) (s : ProtoSession) :
    HyperionRequest → Except ProtoFault ProtoSession
  | .setColors priority ledColors duration =>
    s.call (s.hyperion.setColors priority ledColors duration true .invalid clock)
  | .setImage _ _ _ => .ok s

def handleColorCommand (s : ProtoSession) (clock : Nat → Int) (message : Proto.ColorRequest) :
    Except ProtoFault ProtoSession := do
  let s := { s with priority := message.priority }
  let s ← s.call (s.hyperion.setColor s.priority (qRgb message.rgbColor)
    (message.duration.getD (-1)) true clock)
  pure s.sendSuccessReply

def handleImageCommand (build : Build) (s : ProtoSession) (clock : Nat → Int)
    (message : ImageMessage) : Except ProtoFault ProtoSession := do
  let s := { s with priority := message.priority }
  let (reply, imageProcessor, requests) ←
    (ProtoClientConnection.handleImageCommand build s.imageProcessor message).mapError .image
  let s ← requests.foldlM (perform clock) { s with imageProcessor }
  match reply with
  | .success => pure s.sendSuccessReply
  | .error error => pure (s.sendErrorReply error)

def handleClearCommand (s : ProtoSession) (clock : Nat → Int) (message : Proto.ClearRequest) :
    Except ProtoFault ProtoSession := do
  let s := { s with priority := message.priority }
  let s ← s.call (s.hyperion.clear s.priority clock)
  let s := { s with hyperion := s.hyperion.unRegisterPriority s.priorityChannelName }
  pure s.sendSuccessReply

def handleClearallCommand (s : ProtoSession) (clock : Nat → Int) :
    Except ProtoFault ProtoSession := do
  let s ← s.call (s.hyperion.clearall clock)
  pure s.sendSuccessReply

def dispatch (build : Build) (clock : Nat → Int) (message : Proto.HyperionRequest)
    (s : ProtoSession) : Except ProtoFault ProtoSession :=
  match message.getCommand with
  | .color => message.colorRequest.elim
      (.ok (s.sendErrorReply "Received COLOR command without ColorRequest"))
      (s.handleColorCommand clock)
  | .image => message.imageRequest.elim
      (.ok (s.sendErrorReply "Received IMAGE command without ImageRequest"))
      (s.handleImageCommand build clock)
  | .clear => message.clearRequest.elim
      (.ok (s.sendErrorReply "Received CLEAR command without ClearRequest"))
      (s.handleClearCommand clock)
  | .clearall => s.handleClearallCommand clock

def registerPriority (s : ProtoSession) : ProtoSession :=
  { s with hyperion := s.hyperion.registerPriority s.priorityChannelName s.priority }

/-- A changed priority is registered behind the command. -/
def handleMessage (build : Build) (clock : Nat → Int) (s : ProtoSession)
    (message : Proto.HyperionRequest) : Except ProtoFault ProtoSession := do
  let s := { s with newMessages := s.newMessages ++ [message] }
  let prevPriority := s.priority
  let s ← s.dispatch build clock message
  pure (if prevPriority ≠ s.priority then s.registerPriority else s)

def socketClosed (s : ProtoSession) : ProtoSession :=
  { s with hyperion := s.hyperion.unRegisterPriority s.priorityChannelName }

/-- What a read does with a complete message: an error reply does not end it. -/
def serve (parser : Proto.Parser) (build : Build) (clock : Nat → Int) (s : ProtoSession)
    (body : List UInt8) : Except ProtoFault ProtoSession :=
  let (parsed, message) := parser.parseRequest body
  let s := if parsed then s else s.sendErrorReply "Unable to parse message"
  s.handleMessage build clock message

end ProtoSession

/-- `session` is what the messages act on. -/
structure ProtoClientConnection (σ : Type) where
  receiveBuffer : List UInt8 := []
  session : σ

/-- One read, whatever the messages do to the session. -/
def ProtoClientConnection.readData {σ ε : Type} (serve : σ → List UInt8 → Except ε σ)
    (c : ProtoClientConnection σ) (bytes : List UInt8) : Except ε (ProtoClientConnection σ) :=
  let receiveBuffer := c.receiveBuffer ++ bytes
  match Proto.nextMessage receiveBuffer with
  | none => .ok { c with receiveBuffer }
  | some (body, rest) => (serve c.session body).map fun session => ⟨rest, session⟩

end HyperionNg
