import HyperionNg.IndexList
import HyperionNg.JsonClientConnection
import HyperionNg.Library.HttpMessage

/-! A connection of the web server. What has arrived is taken apart in lines;
where no line end has arrived yet, what is there is taken for a line. A request
is handed to the application, which fills the reply that is sent. -/

namespace HyperionNg

open Library HttpMessage

abbrev QHash := List (List UInt8 × List UInt8)

namespace QHash

def insert (hash : QHash) (key value : List UInt8) : QHash :=
  (key, value) :: hash.filter (·.1 ≠ key)

def value (hash : QHash) (key : List UInt8) : List UInt8 :=
  ((hash.find? (·.1 = key)).map Prod.snd).getD []

end QHash

namespace QByteArray

def trimmed (text : List UInt8) : List UInt8 := Segments.strip blank text

/-- Everything but a decimal `int` reads as no number. -/
def toInt? (text : List UInt8) : Option Int :=
  (QString.signedDecimal (chars (trimmed (cString text)))).filter fun n => -2 ^ 31 ≤ n && n < 2 ^ 31

def toInt (text : List UInt8) : Int := (toInt? text).getD 0

def toLower (text : List UInt8) : List UInt8 :=
  text.map fun b => if 65 ≤ b ∧ b ≤ 90 then b + 32 else b

def number (n : Int) : List UInt8 := bytes (toString n).toList

def hexValue (c : UInt8) : UInt8 :=
  if 48 ≤ c ∧ c ≤ 57 then c - 48
  else if 97 ≤ c ∧ c ≤ 102 then c - 87
  else if 65 ≤ c ∧ c ≤ 70 then c - 55
  else c

def fromPercentEncoding : List UInt8 → List UInt8
  | 37 :: a :: b :: rest => (hexValue a <<< 4 ||| hexValue b) :: fromPercentEncoding rest
  | c :: rest => c :: fromPercentEncoding rest
  | [] => []

end QByteArray

namespace QtHttpHeader

def server : List UInt8 := ascii "Server"
def date : List UInt8 := ascii "Date"
def contentLength : List UInt8 := ascii "Content-Length"
def connection : List UInt8 := ascii "Connection"
def transferEncoding : List UInt8 := ascii "Transfer-Encoding"

end QtHttpHeader

open QByteArray QtHttpHeader

def addHeader (hash : QHash) (header value : List UInt8) : QHash :=
  if trimmed header = [] then hash else hash.insert (trimmed header) value

structure HttpRequest where
  url : List Char
  command : List Char
  data : List UInt8 := []
  headersHash : QHash := addHeader (addHeader [] contentLength (ascii "0")) connection
    (ascii "Keep-Alive")
  postData : List (List Char × List UInt8) := []
deriving DecidableEq

structure HttpReply where
  useChunked : Bool := false
  statusCode : Nat := 200
  data : List UInt8 := []
  headersHash : QHash := []
deriving DecidableEq

inductive ReplyCall
  | setUseChunked (chunked : Bool)
  | setStatusCode (statusCode : Nat)
  | appendRawData (data : List UInt8)
  | addHeader (header value : List UInt8)
  | resetRawData
  | requestSendHeaders
  | requestSendData
deriving DecidableEq

/-- The server with what is not its own: the conversion of UTF-8, the order in
which a hash is iterated, the date, and the application, whose calls on the
reply to a request may depend on all that was before. -/
structure QtHttpServer where
  serverName : List UInt8
  fromUtf8 : List UInt8 → List Char
  fromUtf8_ascii : ∀ text, (∀ b ∈ text, b < 128) → fromUtf8 text = chars text
  iterate : QHash → QHash
  iterate_perm : ∀ hash, (iterate hash).Perm hash
  date : Nat → List UInt8
  requestNeedsReply : Nat → HttpRequest → List ReplyCall

def httpVersion : List Char := "HTTP/1.1".toList

namespace HttpReply

def getStatusTextForCode (statusCode : Nat) : List UInt8 :=
  if statusCode = 200 then ascii "OK."
  else if statusCode = 400 then ascii "Bad request !"
  else if statusCode = 403 then ascii "Forbidden !"
  else if statusCode = 404 then ascii "Not found !"
  else []

def statusLine (statusCode : Nat) : List UInt8 :=
  bytes httpVersion ++ space :: (decimal statusCode ++ space :: getStatusTextForCode statusCode)

def withLength (reply : HttpReply) : HttpReply :=
  { reply with headersHash :=
      if reply.useChunked then addHeader reply.headersHash transferEncoding (ascii "chunked")
      else addHeader reply.headersHash contentLength (decimal reply.data.length) }

end HttpReply

namespace QtHttpServer

variable (server : QtHttpServer)

/-- The reply the server makes for the `n`-th time. -/
def newReply (n : Nat) : HttpReply :=
  { headersHash := addHeader (addHeader [] QtHttpHeader.date (server.date n)) QtHttpHeader.server
      server.serverName }

def onReplySendHeadersRequested (reply : HttpReply) : HttpReply × List UInt8 :=
  let reply := reply.withLength
  let line (header : List UInt8) :=
    header ++ colon :: space :: (reply.headersHash.value header ++ crlf)
  (reply, HttpReply.statusLine reply.statusCode ++ crlf ++
    ((server.iterate reply.headersHash).map fun entry => line entry.1).flatten ++ crlf)

end QtHttpServer

def HttpReply.onReplySendDataRequested (reply : HttpReply) : HttpReply × List UInt8 :=
  if reply.useChunked then
    ({ reply with data := [] },
      bytes (Nat.toDigits 16 reply.data.length) ++ crlf ++ reply.data ++ crlf)
  else (reply, reply.data)

/-- A call on the reply, and what it has written to the socket. -/
def QtHttpServer.call (server : QtHttpServer) (sent : HttpReply × List UInt8) :
    ReplyCall → HttpReply × List UInt8
  | .setUseChunked chunked => ({ sent.1 with useChunked := chunked }, sent.2)
  | .setStatusCode statusCode => ({ sent.1 with statusCode }, sent.2)
  | .appendRawData data => ({ sent.1 with data := sent.1.data ++ data }, sent.2)
  | .addHeader header value =>
    ({ sent.1 with headersHash := addHeader sent.1.headersHash header value }, sent.2)
  | .resetRawData => ({ sent.1 with data := [] }, sent.2)
  | .requestSendHeaders =>
    let (reply, head) := server.onReplySendHeadersRequested sent.1
    (reply, sent.2 ++ head)
  | .requestSendData =>
    let (reply, data) := sent.1.onReplySendDataRequested
    (reply, sent.2 ++ data)

inductive ParsingStatus
  | parsingError (currentRequest : Option HttpRequest)
  | awaitingRequest
  | awaitingHeaders (currentRequest : HttpRequest)
  | awaitingContent (currentRequest : HttpRequest)
  | requestParsed (currentRequest : HttpRequest)
deriving DecidableEq

/-- `handled` are the requests handed to the application, `replies` counts the
replies made, and `written` are the bytes written to the socket. -/
structure QtHttpClientWrapper where
  parsingStatus : ParsingStatus := .awaitingRequest
  handled : List HttpRequest := []
  replies : Nat := 0
  written : List UInt8 := []
  closed : Bool := false
deriving DecidableEq

namespace HttpRequest

def getHeader (request : HttpRequest) (header : List UInt8) : List UInt8 :=
  request.headersHash.value header

def contentSize (request : HttpRequest) : Int := toInt (request.getHeader contentLength)

/-- A length that is a number is entered as Qt prints it. -/
def addLine (request : HttpRequest) (header value : List UInt8) : HttpRequest :=
  let hash := addHeader request.headersHash header value
  { request with headersHash :=
      if header = contentLength then
        (toInt? value).elim hash fun len => addHeader hash contentLength (number len)
      else hash }

def readPart (server : QtHttpServer) (part : List UInt8) : List Char × List UInt8 :=
  match part.splitOn 61 with
  | key :: value :: _ => (server.fromUtf8 key, fromPercentEncoding value)
  | keyValue => (server.fromUtf8 (keyValue.getD 0 []), [])

def readForm (server : QtHttpServer) (data : List UInt8) : List (List Char × List UInt8) :=
  (data.splitOn 38).foldl (fun postData part =>
    let field := readPart server part
    field :: postData.filter (·.1 ≠ field.1)) []

def setPostData (server : QtHttpServer) (request : HttpRequest) : HttpRequest :=
  if request.command = "POST".toList then
    { request with postData := readForm server request.data }
  else request

end HttpRequest

namespace QtHttpClientWrapper

variable (server : QtHttpServer)

def parseRequest (line : List UInt8) : ParsingStatus :=
  match ((QString.trimmed (server.fromUtf8 line)).splitOn ' ').filter (· ≠ []) with
  | [command, url, version] =>
    if version = httpVersion then .awaitingHeaders { url, command } else .parsingError none
  | _ => .parsingError none

def parseHeader (request : HttpRequest) (line : List UInt8) : ParsingStatus :=
  let raw := trimmed line
  if raw = [] then
    if 0 < request.contentSize then .awaitingContent request else .requestParsed request
  else
    let pos := raw.idxOf colon
    if 0 < pos ∧ pos < raw.length then
      .awaitingHeaders (request.addLine (trimmed (raw.take pos)) (trimmed (raw.drop (pos + 1))))
    else .parsingError (some request)

def parseContent (request : HttpRequest) (line : List UInt8) : ParsingStatus :=
  let request := { request with data := request.data ++ line }
  if (request.data.length : Int) = request.contentSize then .requestParsed request
  else .awaitingContent request

def parseLine (line : List UInt8) : ParsingStatus → ParsingStatus
  | .awaitingRequest => parseRequest server line
  | .awaitingHeaders request => parseHeader request line
  | .awaitingContent request => parseContent request line
  | status => status

def sendReplyToClient (c : QtHttpClientWrapper) (currentRequest : Option HttpRequest)
    (sent : HttpReply × List UInt8) : QtHttpClientWrapper :=
  let closes := currentRequest.any fun request =>
    toLower (request.getHeader connection) = ascii "close"
  let (reply, head) := server.onReplySendHeadersRequested sent.1
  let rest := if sent.1.useChunked then ascii "0" ++ crlf ++ crlf
    else head ++ reply.onReplySendDataRequested.2
  { c with
    parsingStatus := .awaitingRequest
    replies := c.replies + 1
    written := c.written ++ sent.2 ++ rest
    closed := c.closed || closes }

def badRequest : List ReplyCall :=
  [.setStatusCode 400, .appendRawData (ascii "<h1>Bad Request (HTTP parsing error) !</h1>"),
    .appendRawData crlf]

def reply (n : Nat) (calls : List ReplyCall) : HttpReply × List UInt8 :=
  calls.foldl server.call (server.newReply n, [])

def answer (c : QtHttpClientWrapper) : QtHttpClientWrapper × Bool :=
  match c.parsingStatus with
  | .requestParsed request =>
    let request := request.setPostData server
    let calls := server.requestNeedsReply c.replies request
    let c := { c with handled := c.handled ++ [request] }
    (c.sendReplyToClient server (some request) (reply server c.replies calls), true)
  | .parsingError request =>
    (c.sendReplyToClient server request (reply server c.replies badRequest), false)
  | _ => (c, true)

end QtHttpClientWrapper

end HyperionNg
