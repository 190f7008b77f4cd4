import HyperionNg.ProtoMessages

/-! The client's end of a proto connection. A reply is taken out of the buffer
only behind `parseReply`, so one that cannot be parsed, or that makes it throw,
stays in front. -/

namespace HyperionNg

open Proto

inductive ProtoSignal
  | setGrabbingMode (mode : Int)
  | setVideoMode (mode : Int)
deriving DecidableEq, Repr

namespace ProtoConnection

/-- The result and the signals, or the text thrown. -/
def parseReply (skipReply : Bool) (reply : HyperionReply) :
    Except String (Bool × List ProtoSignal) :=
  match reply.getType with
  | .reply =>
    if skipReply then .ok (false, [])
    else if reply.getSuccess then .ok (true, [])
    else .error ("PROTOCONNECTION ERROR: " ++ reply.error.getD "No error info")
  | .grabbing => .ok (false, [.setGrabbingMode (reply.grabbing.getD 7)])
  | .video => .ok (false, [.setVideoMode (reply.video.getD 0)])

end ProtoConnection

/-- `dispatched` are the replies handed to `parseReply`, and `raised` the texts
it threw. -/
structure ProtoConnection where
  receiveBuffer : List UInt8 := []
  skipReply : Bool := false
  dispatched : List HyperionReply := []
  signals : List ProtoSignal := []
  raised : List String := []

namespace ProtoConnection

/-- One read; an exception leaves it before the message is removed. -/
def readData (parser : Parser) (c : ProtoConnection) (bytes : List UInt8) : ProtoConnection :=
  let c := { c with receiveBuffer := c.receiveBuffer ++ bytes }
  match nextMessage c.receiveBuffer with
  | none => c
  | some (body, rest) =>
    match parser.parseReply body with
    | (false, _) => c
    | (true, reply) =>
      let c := { c with dispatched := c.dispatched ++ [reply] }
      match parseReply c.skipReply reply with
      | .error error => { c with raised := c.raised ++ [error] }
      | .ok (_, signals) => { c with receiveBuffer := rest, signals := c.signals ++ signals }

end ProtoConnection

end HyperionNg
