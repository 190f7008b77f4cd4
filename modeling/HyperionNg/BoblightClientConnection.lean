import HyperionNg.Hyperion
import HyperionNg.ImageProcessor
import HyperionNg.IndexList

/-! A connection of the boblight server, and the UDP listener beside it. A
client sets its lights one by one; the colours go to the channel of the
connection with the last light and with `sync`. -/

namespace HyperionNg

open Library Library.Execution

namespace QString

def toInt? (text : List Char) : Option Int :=
  (signedDecimal (trimmed text)).filter fun n => -2 ^ 31 ≤ n && n < 2 ^ 31

/-- A sign other than `+` is refused. -/
def toUInt? (text : List Char) : Option Nat :=
  let digits := match trimmed text with
    | '+' :: digits => digits
    | digits => digits
  (unsignedDecimal digits).filter (· < 2 ^ 32)

/-- `split(" ", SkipEmptyParts)` -/
def words (text : List Char) : List String :=
  ((text.splitOn ' ').filter (· ≠ [])).map String.ofList

end QString

/-- An enumerator where a `bool` is expected; `COMP_INVALID` is 0. -/
def Components.toBool (component : Components) : Bool := component ≠ .invalid

/-- The arithmetic and the formats of the platform. `level` is
`int(255 * text.toFloat(&rc))`, or `none` where `rc` is false; `scanLine` prints
the line of a LED, whose parameters stay uninitialised beyond the layout. -/
structure BoblightPlatform where
  level : String → Option Int
  scanLine : Nat → Option Led → String

inductive Locale
  | c
  | dutch
deriving DecidableEq

inductive ChannelCall
  | setColors (priority : Int)
  | clear (priority : Int)
deriving DecidableEq

/-- `calls` are the calls into the core, and `sent` the messages written, both in
order. -/
structure BoblightClientConnection where
  hyperion : Hyperion
  imageProcessor : ImageProcessor
  priority : Int
  ledColors : List ColorRgb
  locale : Locale := .c
  sent : List String := []
  calls : List ChannelCall := []
  closed : Bool := false

namespace BoblightClientConnection

def create (hyperion : Hyperion) (imageProcessor : ImageProcessor) (priority : Int) :
    BoblightClientConnection where
  hyperion := hyperion
  imageProcessor := imageProcessor
  priority := priority
  ledColors := List.replicate hyperion.ledString.length .black

abbrev Handled := Except (Thrown Fault BoblightClientConnection) BoblightClientConnection

/-- A call into the core; what it throws leaves the slot. -/
def call (c : BoblightClientConnection) (made : ChannelCall)
    (result : Except (Thrown Fault Hyperion) Hyperion) : Handled :=
  let calls := c.calls ++ [made]
  match result with
  | .ok hyperion => .ok { c with hyperion, calls }
  | .error thrown => .error ⟨thrown.fault, { c with hyperion := thrown.state, calls }⟩

/-- `setColors(_priority, _ledColors, -1, COMP_BOBLIGHTSERVER)`: the component
stands in the place of `clearEffects`. -/
def setColors (c : BoblightClientConnection) (clock : Nat → Int) : Handled :=
  c.call (.setColors c.priority) (c.hyperion.setColors c.priority c.ledColors (-1)
    Components.boblightserver.toBool .invalid clock)

def clear (c : BoblightClientConnection) (clock : Nat → Int) : Handled :=
  c.call (.clear c.priority) (c.hyperion.clear c.priority clock)

def sendMessage (c : BoblightClientConnection) (message : String) : BoblightClientConnection :=
  { c with sent := c.sent ++ [message] }

def sendLightMessage (platform : BoblightPlatform) (c : BoblightClientConnection) :
    BoblightClientConnection :=
  let ledCount := c.hyperion.ledString.length
  let lines := (List.range ledCount).map fun i =>
    platform.scanLine i c.imageProcessor.ledString[i]?
  { c with sent := c.sent ++ ("lights " ++ toString ledCount ++ "\n") :: lines }

def levelByte (level : Option Int) : UInt8 := UInt8.ofInt (max 0 (min 255 (level.getD 0)))

/-- `replace(',', '.')` -/
def decimalPoint (text : String) : String := text.map fun c => if c = ',' then '.' else c

def switchLocale (c : BoblightClientConnection) (red : Option Int) : BoblightClientConnection :=
  if red.isNone then { c with locale := if c.locale = .c then .dutch else .c } else c

/-- `set light i rgb red green blue` -/
def setLight (platform : BoblightPlatform) (clock : Nat → Int) (c : BoblightClientConnection)
    (ledIndex : Nat) (red green blue : String) : Handled :=
  let level := fun text => platform.level (decimalPoint text)
  let c := c.switchLocale (level red)
  if (level red).isSome && (level green).isSome && (level blue).isSome then
    let rgb : ColorRgb := ⟨levelByte (level red), levelByte (level green), levelByte (level blue)⟩
    let c := { c with ledColors := c.ledColors.set ledIndex rgb }
    if ledIndex = c.ledColors.length - 1 ∧ c.priority < 255 then c.setColors clock else .ok c
  else .ok c

/-- `set priority p`; the channel of the old priority is left cleared. -/
def setPriority (clock : Nat → Int) (c : BoblightClientConnection) (prio : Int) : Handled :=
  if prio = c.priority then .ok c
  else do
    let c ← optionally (c.priority < 255) (·.clear clock) c
    pure { c with priority := prio }

def sync (clock : Nat → Int) (c : BoblightClientConnection) : Handled :=
  optionally (c.priority < 255) (·.setColors clock) c

/-- Every other message is ignored. -/
def handleMessage (platform : BoblightPlatform) (clock : Nat → Int)
    (c : BoblightClientConnection) (message : List Char) : Handled :=
  match QString.words message with
  | "hello" :: _ => .ok (c.sendMessage "hello\n")
  | "ping" :: _ => .ok (c.sendMessage "ping 1\n")
  | "get" :: "version" :: _ => .ok (c.sendMessage "version 5\n")
  | "get" :: "lights" :: _ => .ok (c.sendLightMessage platform)
  | ["set", "light", index, "rgb", red, green, blue] =>
    match (QString.toUInt? index.toList).filter (· < c.ledColors.length) with
    | some ledIndex => c.setLight platform clock ledIndex red green blue
    | none => .ok c
  | ["set", "priority", prio] => (QString.toInt? prio.toList).elim (.ok c) (c.setPriority clock)
  | "sync" :: _ => c.sync clock
  | _ => .ok c

def leave (clock : Nat → Int) (c : BoblightClientConnection) : Handled := do
  let c ← optionally (c.priority < 255)
    (fun c => do pure { (← c.clear clock) with priority := 255 }) c
  pure { c with closed := true }

end BoblightClientConnection

structure UDPListener where
  hyperion : Hyperion
  priority : Int
  timeout : Int

def datagramColors : Nat → List UInt8 → List ColorRgb
  | 0, _ => []
  | ledCount + 1, red :: green :: blue :: bytes =>
    ⟨red, green, blue⟩ :: datagramColors ledCount bytes
  | ledCount + 1, _ => List.replicate (ledCount + 1) .black

def UDPListener.processTheDatagram (clock : Nat → Int) (l : UDPListener) (datagram : List UInt8) :
    Except (Thrown Fault Hyperion) Hyperion :=
  l.hyperion.setColors l.priority (datagramColors l.hyperion.ledString.length datagram) l.timeout
    true .udplistener clock

end HyperionNg
