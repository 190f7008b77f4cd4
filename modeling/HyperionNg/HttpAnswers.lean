import HyperionNg.HttpRequests
import HyperionNg.StaticFileServing

/-! The answers of the web server. The requests of a connection are handled and
answered once and in order where every body ends with a piece; a body that does
not is waited for without end. -/

namespace HyperionNg

open Library HttpMessage Lines QByteArray QtHttpHeader

/-- A call that leaves the sending to the connection. -/
def ReplyCall.Plain : ReplyCall → Prop
  | .setUseChunked chunked => chunked = false
  | .addHeader header value =>
    trimmed header ≠ [] → (HttpMessage.Field.mk (trimmed header) value).WellFormed
  | .requestSendHeaders | .requestSendData => False
  | .setStatusCode _ | .appendRawData _ | .resetRawData => True

structure QtHttpServer.Plain (server : QtHttpServer) : Prop where
  serverName : HttpMessage.Plain server.serverName
  date : ∀ n, HttpMessage.Plain (server.date n)
  calls : ∀ n request, ∀ call ∈ server.requestNeedsReply n request, call.Plain

namespace QHash

def WellFormed (hash : QHash) : Prop :=
  ∀ entry ∈ hash, (HttpMessage.Field.mk entry.1 entry.2).WellFormed

theorem WellFormed.insert {hash : QHash} (formed : hash.WellFormed) {key value : List UInt8}
    (field : (HttpMessage.Field.mk key value).WellFormed) : (hash.insert key value).WellFormed := by
  intro entry mem
  rcases List.mem_cons.mp mem with rfl | mem
  · exact field
  · exact formed entry (List.mem_of_mem_filter mem)

theorem WellFormed.addHeader {hash : QHash} (formed : hash.WellFormed) {header value : List UInt8}
    (field : trimmed header ≠ [] → (HttpMessage.Field.mk (trimmed header) value).WellFormed) :
    (addHeader hash header value).WellFormed := by
  rw [HyperionNg.addHeader]
  split_ifs with none
  · exact formed
  · exact formed.insert (field none)

theorem WellFormed.value {hash : QHash} (formed : hash.WellFormed) {entry : List UInt8 × List UInt8}
    (mem : entry ∈ hash) : (HttpMessage.Field.mk entry.1 (hash.value entry.1)).WellFormed := by
  cases found : hash.find? (·.1 = entry.1) with
  | none => exact absurd (List.find?_eq_none.mp found entry mem) (by simp)
  | some other =>
    have same : other.1 = entry.1 := by simpa using List.find?_some found
    have value : hash.value entry.1 = other.2 := by simp [QHash.value, found]
    rw [value, ← same]
    exact formed other (List.mem_of_find?_eq_some found)

end QHash

theorem field_of_name {name value : List UInt8} (header : Plain name) (nonempty : name ≠ [])
    (noColon : colon ∉ name) (plain : Plain value) : (HttpMessage.Field.mk name value).WellFormed :=
  ⟨header, nonempty, noColon, plain⟩

namespace HttpReply

structure WellFormed (reply : HttpReply) : Prop where
  whole : reply.useChunked = false
  fields : reply.headersHash.WellFormed

def message (server : QtHttpServer) (reply : HttpReply) : HttpMessage.Message :=
  let hash := reply.withLength.headersHash
  ⟨statusLine reply.statusCode,
    (server.iterate hash).map fun entry => ⟨entry.1, hash.value entry.1⟩, reply.data⟩

theorem WellFormed.call {server : QtHttpServer} {reply : HttpReply} (formed : reply.WellFormed)
    {call : ReplyCall} (plain : call.Plain) :
    (server.call (reply, []) call).1.WellFormed ∧ (server.call (reply, []) call).2 = [] := by
  cases call with
  | setUseChunked chunked => exact ⟨⟨plain, formed.fields⟩, rfl⟩
  | addHeader header value => exact ⟨⟨formed.whole, formed.fields.addHeader plain⟩, rfl⟩
  | setStatusCode | appendRawData | resetRawData => exact ⟨⟨formed.whole, formed.fields⟩, rfl⟩
  | requestSendHeaders | requestSendData => exact plain.elim

theorem WellFormed.calls {server : QtHttpServer} {calls : List ReplyCall}
    (plain : ∀ call ∈ calls, call.Plain) {reply : HttpReply} (formed : reply.WellFormed) :
    (calls.foldl server.call (reply, [])).1.WellFormed ∧
      (calls.foldl server.call (reply, [])).2 = [] := by
  induction calls generalizing reply with
  | nil => exact ⟨formed, rfl⟩
  | cons call calls ih =>
    obtain ⟨kept, silent⟩ : (server.call (reply, []) call).1.WellFormed ∧ _ :=
      formed.call (plain call (by simp))
    have next : server.call (reply, []) call = ((server.call (reply, []) call).1, []) :=
      Prod.ext rfl silent
    rw [List.foldl_cons, next]
    exact ih (fun later mem => plain later (by simp [mem])) kept

theorem WellFormed.headersHash {reply : HttpReply} (formed : reply.WellFormed) :
    reply.withLength.headersHash =
      reply.headersHash.insert contentLength (decimal reply.data.length) := by
  rw [withLength, formed.whole]
  exact addHeader_of_plain _ plain_lengthName (by decide) _

theorem WellFormed.message {reply : HttpReply} (formed : reply.WellFormed) (server : QtHttpServer) :
    (reply.message server).WellFormed := by
  have field : (HttpMessage.Field.mk contentLength (decimal reply.data.length)).WellFormed :=
    field_of_name plain_lengthName (by decide) (by decide) (plain_decimal _)
  have all := formed.fields.insert field
  rw [← formed.headersHash] at all
  constructor
  · have text : ∀ code, lineEnd ∉ getStatusTextForCode code := by
      intro code
      rw [getStatusTextForCode]
      split_ifs <;> decide
    simp only [HttpReply.message, statusLine, List.mem_append, List.mem_cons, not_or]
    exact ⟨by decide, by decide, (plain_decimal _).oneLine, by decide, text _⟩
  · intro f mem
    obtain ⟨entry, here, rfl⟩ := List.mem_map.mp mem
    exact all.value ((server.iterate_perm _).mem_iff.mp here)
  · have value : reply.withLength.headersHash.value contentLength = decimal reply.data.length := by
      rw [formed.headersHash, QHash.value_insert, if_pos rfl]
    have mem : (contentLength, decimal reply.data.length) ∈
        server.iterate reply.withLength.headersHash := by
      rw [(server.iterate_perm _).mem_iff, formed.headersHash]
      exact List.mem_cons_self
    rw [bodyLength]
    cases found : (reply.message server).fields.find? (·.name = lengthName) with
    | none =>
      have absent := List.find?_eq_none.mp found _ (List.mem_map_of_mem mem)
      exact absurd (decide_eq_true rfl) absent
    | some f =>
      obtain ⟨entry, -, rfl⟩ := List.mem_map.mp (List.mem_of_find?_eq_some found)
      have name : entry.1 = lengthName := by simpa using List.find?_some found
      rw [lengthName_eq] at value
      rw [Option.elim_some, name, value, number_decimal]
      rfl

end HttpReply

def SentRequest.closes (r : SentRequest) : Bool :=
  toLower (r.head.getHeader connection) = ascii "close"

def served : List SentRequest → List SentRequest
  | [] => []
  | r :: rest => if r.closes then [r] else r :: served rest

def answers (server : QtHttpServer) : Nat → List SentRequest → List HttpMessage.Message
  | _, [] => []
  | n, r :: rest =>
    let calls := server.requestNeedsReply n (r.received server)
    (QtHttpClientWrapper.reply server n calls).1.message server :: answers server (n + 1) rest

namespace QtHttpClientWrapper

variable {server : QtHttpServer}

def answered (server : QtHttpServer) (c : QtHttpClientWrapper) (r : SentRequest) :
    QtHttpClientWrapper :=
  let calls := server.requestNeedsReply c.replies (r.received server)
  { parsingStatus := .awaitingRequest
    handled := c.handled ++ [r.received server]
    replies := c.replies + 1
    written := c.written ++ ((reply server c.replies calls).1.message server).encode
    closed := c.closed || r.closes }

end QtHttpClientWrapper

namespace StaticFileServing

variable {web : StaticFileServing} (fs : DirectoryTree)

end StaticFileServing

namespace QtHttpClientWrapper

variable {server : QtHttpServer}

end QtHttpClientWrapper

end HyperionNg
