import HyperionNg.Json
import HyperionNg.Library.Execution

/-! The serial port driver. It blocks while a frame is being written: the flag
is cleared when enough bytes are reported written, or by a single-shot timer.
Every frame and every opening starts a timer, which nothing stops. -/

namespace HyperionNg

open Library.Execution

namespace ProviderRs232

/-- `QSerialPort::SerialPortError` -/
inductive SerialPortError
  | noError
  | deviceNotFoundError
  | permissionError
  | openError
  | parityError
  | framingError
  | breakConditionError
  | writeError
  | readError
  | resourceError
  | unsupportedOperationError
  | timeoutError
  | notOpenError
  | unknownError
deriving DecidableEq, Repr

def SerialPortError.disables : SerialPortError → Bool
  | .permissionError | .unsupportedOperationError | .unknownError => true
  | _ => false

/-- The port; `queued` is what it has accepted and not reported written. -/
structure QSerialPort where
  portName : String := ""
  isOpen : Bool := false
  baudRate : Int := 0
  queued : Nat := 0

end ProviderRs232

structure ProviderRs232 where
  deviceName : String
  baudRate_Hz : Int
  delayAfterConnect_ms : Int
  rs232Port : ProviderRs232.QSerialPort := {}
  blockedForDelay : Bool := false
  stateChanged : Bool := true
  bytesToWrite : Int := 0
  bytesWritten : Int := 0
  frameDropCounter : Int := 0
  lastError : ProviderRs232.SerialPortError := .noError
  preOpenDelayTimeOut : Int := 0
  preOpenDelay : Int
  enableAutoDeviceName : Bool
  deviceReady : Bool := true

namespace ProviderRs232

/-- A constructed driver after `init`. -/
def init (deviceConfig : QJsonObject) : ProviderRs232 :=
  let deviceName := ((deviceConfig.value "output").getD .null).toString "auto"
  { deviceName
    enableAutoDeviceName := deviceName == "auto"
    baudRate_Hz := ((deviceConfig.value "rate").getD .null).toInt 0
    delayAfterConnect_ms := ((deviceConfig.value "delayAfterConnect").getD .null).toInt 1500
    preOpenDelay := ((deviceConfig.value "delayBeforeConnect").getD .null).toInt 1500 }

structure Frame where
  left : Nat
  queued : Nat
  deadline : Int
deriving DecidableEq, Repr

/-- The driver among its surroundings: the clock in milliseconds, the due times
of the pending timers, and the frames handed over. -/
structure Session where
  device : ProviderRs232
  now : Int
  timers : List Int := []
  framesHanded : Nat := 0
  last : Option Frame := none

structure Answers where
  serialDevice : String
  fileExists : Bool
  opens : Bool

namespace Session

def singleShot (s : Session) (delay : Int) : Session :=
  { s with timers := s.timers ++ [s.now + delay] }

def unblockAfterDelay (s : Session) : Session :=
  { s with device := { s.device with blockedForDelay := false } }

def closeDevice (s : Session) : Session :=
  if s.device.rs232Port.isOpen then
    { s with
      device := { s.device with
        rs232Port := { s.device.rs232Port with isOpen := false, queued := 0 } }
      last := s.last.map fun frame => { frame with queued := 0 } }
  else s

def error (s : Session) (e : SerialPortError) : Session :=
  if e ≠ .noError ∧ s.device.lastError ≠ e then
    closeDevice { s with device := { s.device with
      lastError := e
      deviceReady := s.device.deviceReady && !e.disables } }
  else s

def setPortName (device : ProviderRs232) : ProviderRs232 :=
  { device with rs232Port := { device.rs232Port with portName := device.deviceName } }

/-- The first part of `tryOpen`: a name for the port. -/
def namePort (device : ProviderRs232) (answers : Answers) : ProviderRs232 × Bool :=
  if device.deviceName = "" ∨ device.rs232Port.portName = "" then
    if device.enableAutoDeviceName then
      let device := { device with deviceName := answers.serialDevice }
      if answers.serialDevice = "" then (device, false) else (setPortName device, true)
    else (setPortName device, true)
  else (device, true)

def openPort (device : ProviderRs232) (now : Int) (answers : Answers) : ProviderRs232 × Bool :=
  if device.rs232Port.isOpen then (device, true)
  else
    let device := { device with frameDropCounter := 0 }
    if answers.fileExists then
      if device.preOpenDelayTimeOut > now then (device, false)
      else if answers.opens then
        ({ device with
          rs232Port := { device.rs232Port with isOpen := true, baudRate := device.baudRate_Hz }
          stateChanged := true
          preOpenDelayTimeOut := 0 }, true)
      else ({ device with stateChanged := false }, false)
    else ({ device with preOpenDelayTimeOut := now + device.preOpenDelay }, false)

def tryOpen (s : Session) (delayAfterConnect_ms : Int) (answers : Answers) : Session × Bool :=
  match namePort s.device answers with
  | (device, false) => ({ s with device }, false)
  | (device, true) =>
    match openPort device s.now answers with
    | (device, false) => ({ s with device }, false)
    | (device, true) =>
      if delayAfterConnect_ms > 0 then
        (singleShot { s with device := { device with blockedForDelay := true } }
          delayAfterConnect_ms, true)
      else ({ s with device }, true)

def «open» (s : Session) (answers : Answers) : Session × Int :=
  let (s, opened) := s.tryOpen s.device.delayAfterConnect_ms answers
  (s, if opened then 0 else -1)

/-- The frame goes to the port, which accepts `accepted` bytes of it; `none`
stands for its answer -1. -/
def handOver (s : Session) (data : List UInt8) (accepted : Option Nat) : Session × Int :=
  let failed : Bool := accepted ≠ some data.length
  let delay := if failed then 500 else 5000
  let device := { s.device with
    frameDropCounter := 0
    blockedForDelay := true
    bytesToWrite := data.length
    rs232Port := { s.device.rs232Port with
      queued := s.device.rs232Port.queued + accepted.getD 0 } }
  (singleShot { s with
    device
    framesHanded := s.framesHanded + 1
    last := some ⟨data.length, accepted.getD 0, s.now + delay⟩ } delay, if failed then -1 else 0)

def writeBytes (s : Session) (data : List UInt8) (answers : Answers) (accepted : Option Nat) :
    Session × Int :=
  if s.device.blockedForDelay then
    ({ s with device := { s.device with frameDropCounter := s.device.frameDropCounter + 1 } }, 0)
  else if s.device.rs232Port.isOpen then s.handOver data accepted
  else
    let (s, opened) := s.tryOpen 5000 answers
    (s, if opened then 0 else -1)

end Session

/-- `bytes` more are reported, of what the port was given first. -/
def Frame.report (frame : Frame) (queued : Nat) : Frame where
  left := frame.left - (frame.queued - queued)
  queued := min frame.queued queued
  deadline := frame.deadline

namespace Session

/-- The port reports `bytes` written, and the slot counts them. -/
def bytesWritten (s : Session) (bytes : Nat) : Session :=
  let queued := s.device.rs232Port.queued - bytes
  let device := { s.device with
    bytesWritten := s.device.bytesWritten + bytes
    rs232Port := { s.device.rs232Port with queued } }
  { s with
    last := s.last.map fun frame => frame.report queued
    device :=
      if device.bytesWritten ≥ device.bytesToWrite then
        { device with bytesToWrite := 0, blockedForDelay := false }
      else device }

end Session

inductive Event
  | writeBytes (data : List UInt8) (answers : Answers) (accepted : Option Nat)
  | bytesWritten (bytes : Nat)
  | timeout (i : Nat)
  | passes (ms : Nat)
  | «open» (answers : Answers)
  | error (e : SerialPortError)

def Possible (s : Session) : Event → Prop
  | .writeBytes data _ accepted => ∀ n, accepted = some n → n ≤ data.length
  | .bytesWritten bytes => s.device.rs232Port.isOpen = true ∧ bytes ≤ s.device.rs232Port.queued
  | .timeout i => ∃ due, s.timers[i]? = some due ∧ due ≤ s.now
  | _ => True

instance (s : Session) (event : Event) : Decidable (Possible s event) :=
  match event with
  | .writeBytes data _ none => .isTrue nofun
  | .writeBytes data _ (some n) => decidable_of_iff (n ≤ data.length) (by simp [Possible])
  | .bytesWritten _ => inferInstanceAs (Decidable (_ ∧ _))
  | .timeout i =>
    match h : s.timers[i]? with
    | none => .isFalse (by simp [Possible, h])
    | some due => decidable_of_iff (due ≤ s.now) (by simp [Possible, h])
  | .passes _ | .open _ | .error _ => .isTrue trivial

def after (s : Session) : Event → Session
  | .writeBytes data answers accepted => (s.writeBytes data answers accepted).1
  | .bytesWritten bytes => s.bytesWritten bytes
  | .timeout i => { s with timers := s.timers.eraseIdx i }.unblockAfterDelay
  | .passes ms => { s with now := s.now + ms }
  | .open answers => (s.open answers).1
  | .error e => s.error e

def step (s : Session) (event : Event) : Except Unit Session :=
  if Possible s event then .ok (after s event) else .error ()

end ProviderRs232

end HyperionNg
