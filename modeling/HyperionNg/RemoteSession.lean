import HyperionNg.JsonConnection
import HyperionNg.Library.HttpMessage
import HyperionNg.Library.RequestReply
import HyperionNg.RawMessages

/-! A remote control and the JSON server on a raw connection. The remote control
sends a command and reads until a line end; the server handles every line it has
whole. Both streams are cut anywhere, in any order. -/

namespace HyperionNg

open Library Execution Lines JsonCommands

/-- The daemon with the parts of Qt its JSON server uses. -/
structure Site (σ : Type) where
  host : Host
  qt : Qt
  fromUtf8 : List UInt8 → String
  view : σ → Daemon
  surroundings : Dialogue.Surroundings DaemonRequest.Answer σ

inductive SessionFault
  | socket (fault : SocketFault)
  | hangs
  | impossible
deriving DecidableEq

/-- `up` is under way to the server, and `down` to the remote control. -/
structure Session (σ : Type) where
  daemon : σ
  server : JsonClientConnection := {}
  client : JsonConnection := {}
  up : List UInt8 := []
  down : List UInt8 := []
  calls : List QJsonObject := []

inductive SessionEvent
  | sendMessage (message : QJsonObject)
  | readData (n : Nat)
  | readyRead (n : Nat)

namespace Site

variable {σ : Type} (site : Site σ)

def handle (s : σ) (text : List UInt8) : Option σ × List QJsonObject :=
  let program := handleMessage site.host (site.view s) (site.fromUtf8 text)
  (program.reached site.surroundings s, program.sent site.surroundings s)

def handleAll : σ → List (List UInt8) → JsonClientConnection →
    Except SessionFault (σ × JsonClientConnection)
  | s, [], c => .ok (s, c)
  | s, text :: rest, c =>
    match site.handle s text with
    | (some t, replies) =>
      handleAll t rest (replies.foldl (JsonClientConnection.sendMessage site.qt) c)
    | (none, _) => .error .hangs

def step (x : Session σ) : SessionEvent → Except SessionFault (Session σ)
  | .sendMessage message =>
    if x.client.reading then .error .impossible
    else
      let (client, bytes) := x.client.sendMessage site.qt message
      .ok { x with client, up := x.up ++ bytes, calls := x.calls ++ [message] }
  | .readData n =>
    match x.server.readData site.qt (x.up.take n) with
    | .error fault => .error (.socket fault)
    | .ok server =>
      match site.handleAll x.daemon (server.handled.drop x.server.handled.length) server with
      | .error fault => .error fault
      | .ok (daemon, answered) =>
        .ok { x with
          daemon, server := answered, up := x.up.drop n
          down := x.down ++ answered.written.drop server.written.length }
  | .readyRead n =>
    if x.client.reading then
      .ok { x with client := x.client.readyRead (x.down.take n), down := x.down.drop n }
    else .error .impossible

def answer (s : σ) (text : List UInt8) : σ × List UInt8 :=
  match site.handle s text with
  | (some t, replies) => (t, (replies.map fun reply => site.qt.toJson reply ++ [newline]).flatten)
  | (none, _) => (s, [])

def line (call : QJsonObject) : List UInt8 := site.qt.toJson call ++ [newline]

def converse : σ → List QJsonObject → σ × List (List QJsonObject)
  | s, [] => (s, [])
  | s, call :: rest =>
    match site.handle s (site.line call) with
    | (some t, replies) =>
      let (u, others) := converse t rest
      (u, replies :: others)
    | (none, _) =>
      let (u, others) := converse s rest
      (u, [] :: others)

variable {site}

theorem handle_replies (s : σ) (text : List UInt8) {t : σ} {replies : List QJsonObject}
    (handled : site.handle s text = (some t, replies)) :
    replies = [] ∨ ∃ reply, IsReply reply ∧ replies = [reply] := by
  obtain ⟨stops, sent⟩ := Prod.mk.inj handled
  by_cases named : ∀ message, IsCommand site.host (site.fromUtf8 text) "adjustment" message →
      NamesAdjustment (site.view s) message
  · obtain ⟨reply, isReply, once⟩ := ((handleMessage_sends named).sent_iff site.surroundings s).mpr
      (Dialogue.answered_of_reached stops)
    exact Or.inr ⟨reply, isReply, sent.symm.trans once⟩
  · push Not at named
    obtain ⟨message, adjusts, unknown⟩ := named
    exact Or.inl (sent.symm.trans (handleMessage_silent adjusts unknown site.surroundings s))

private theorem line_of_compact (compact : ∀ message, newline ∉ site.qt.toJson message)
    (message : QJsonObject) : Line newline (site.line message) :=
  ⟨site.qt.toJson message, compact message, rfl⟩

theorem answers (compact : ∀ message, newline ∉ site.qt.toJson message) :
    RequestReply.Answers newline site.answer := by
  intro s text
  rw [answer]
  split
  · rename_i t replies handled
    rcases handle_replies s text handled with rfl | ⟨reply, -, rfl⟩
    · exact Or.inl rfl
    · refine Or.inr ?_
      simpa [line] using line_of_compact compact reply
  · exact Or.inl rfl

theorem foldl_sendMessage {c : JsonClientConnection} (raw : c.webSocketHandshakeDone = false)
    (replies : List QJsonObject) :
    replies.foldl (JsonClientConnection.sendMessage site.qt) c = { c with
      written := c.written ++ (replies.map fun reply =>
        site.qt.toJson reply ++ [newline]).flatten } := by
  induction replies generalizing c with
  | nil => simp
  | cons reply rest ih =>
    have first : c.sendMessage site.qt reply =
        { c with written := c.written ++ (site.qt.toJson reply ++ [newline]) } := by
      simp [JsonClientConnection.sendMessage, raw, JsonClientConnection.write]
    have later :=
      ih (c := { c with written := c.written ++ (site.qt.toJson reply ++ [newline]) }) raw
    rw [List.foldl_cons, first, later]
    simp

theorem handleAll_eq {s t : σ} {texts : List (List UInt8)} {c d : JsonClientConnection}
    (raw : c.webSocketHandshakeDone = false) (handled : site.handleAll s texts c = .ok (t, d)) :
    t = (RequestReply.answerAll site.answer s texts).1 ∧
      d = { c with
        written := c.written ++ (RequestReply.answerAll site.answer s texts).2.flatten } := by
  induction texts generalizing s c with
  | nil =>
    obtain ⟨rfl, rfl⟩ := Prod.mk.inj (Except.ok.inj handled)
    simp [RequestReply.answerAll]
  | cons text rest ih =>
    rw [handleAll] at handled
    split at handled
    · rename_i u replies here
      rw [foldl_sendMessage raw] at handled
      have first : site.answer s text =
          (u, (replies.map fun reply => site.qt.toJson reply ++ [newline]).flatten) := by
        rw [answer, here]
      obtain ⟨daemon, connection⟩ := ih (c := { c with written := c.written ++
        (replies.map fun reply => site.qt.toJson reply ++ [newline]).flatten }) raw handled
      rw [RequestReply.answerAll, first]
      exact ⟨daemon, by rw [connection]; simp⟩
    · cases handled

theorem converse_cons (s : σ) (call : QJsonObject) (rest : List QJsonObject) {t : Option σ}
    {replies : List QJsonObject} (handled : site.handle s (site.line call) = (t, replies)) :
    site.converse s (call :: rest) = ((site.converse (t.getD s) rest).1,
      (if t.isSome then replies else []) :: (site.converse (t.getD s) rest).2) := by
  rw [converse, handled]
  cases t with
  | none => rfl
  | some t => rfl

theorem answerAll_eq (s : σ) (calls : List QJsonObject) :
    RequestReply.answerAll site.answer s (calls.map site.line) = ((site.converse s calls).1,
      (site.converse s calls).2.map fun replies => (replies.map site.line).flatten) := by
  induction calls generalizing s with
  | nil => rfl
  | cons call rest ih =>
    rcases handled : site.handle s (site.line call) with ⟨t, replies⟩
    rw [List.map_cons, RequestReply.answerAll, converse_cons s call rest handled, answer, handled]
    cases t with
    | none => simp [ih]
    | some t =>
      simp [ih]
      rfl

theorem converse_replies (s : σ) (calls : List QJsonObject) :
    ∀ replies ∈ (site.converse s calls).2,
      replies = [] ∨ ∃ reply, IsReply reply ∧ replies = [reply] := by
  induction calls generalizing s with
  | nil => exact fun replies mem => absurd mem List.not_mem_nil
  | cons call rest ih =>
    rcases handled : site.handle s (site.line call) with ⟨t, here⟩
    rw [converse_cons s call rest handled]
    intro replies mem
    rcases List.mem_cons.mp mem with rfl | later
    · cases t with
      | none => exact Or.inl rfl
      | some t => exact handle_replies s _ handled
    · exact ih _ replies later

end Site

namespace Session

variable {σ : Type} {site : Site σ}

def link (site : Site σ) (x : Session σ) : RequestReply.Link UInt8 σ where
  other := x.daemon
  kept := x.server.receiveBuffer
  up := x.up
  down := x.down
  heard := x.client.serializedReply
  waiting := x.client.reading
  requests := x.calls.map site.line
  replies := x.client.replies

def event (site : Site σ) : SessionEvent → RequestReply.Event UInt8
  | .sendMessage message => .request (site.line message)
  | .readData n => .arriveUp n
  | .readyRead n => .arriveDown n

/-- No command is taken for a request to upgrade. -/
def Plain (site : Site σ) (call : QJsonObject) : Prop := ¬ upgradeRequest <:+: site.qt.toJson call

theorem Plain.no_upgrade {call : QJsonObject} (plain : Plain site call) {front rest : List UInt8}
    (joined : front ++ rest = site.line call) : ¬ upgradeRequest <:+: front := by
  intro found
  have whole : upgradeRequest <:+: site.qt.toJson call ++ newline :: [] := by
    have inLine : front <:+: site.line call := joined ▸ (List.prefix_append front rest).isInfix
    exact found.trans inLine
  rcases infix_of_terminated JsonClientConnection.newline_not_mem_upgradeRequest whole with
    inCall | behind
  · exact plain inCall
  · exact absurd behind (by decide)

structure InStep (site : Site σ) (s : σ) (x : Session σ) : Prop where
  raw : x.server.Raw
  phase : RequestReply.Synchronous newline site.answer s (x.link site)
  whole : RequestReply.Whole newline (x.link site)
  plain : ∀ call ∈ x.calls, Plain site call

variable {s : σ} {x y : Session σ}

theorem InStep.no_upgrade (inv : InStep site s x) (n : Nat) :
    ¬ upgradeRequest <:+: x.server.receiveBuffer ++ x.up.take n := by
  obtain ⟨raw, phase, -, plain⟩ := inv
  generalize linked : x.link site = l at phase
  have kept : x.server.receiveBuffer = l.kept := by rw [← linked]; rfl
  have up : x.up = l.up := by rw [← linked]; rfl
  have requests : x.calls.map site.line = l.requests := by rw [← linked]; rfl
  have empty : ¬ upgradeRequest <:+: ([] : List UInt8) := by decide
  rw [kept, up]
  cases phase with
  | idle => simpa using empty
  | @asked other keptLine upLine line lines replies done isLine joined absent =>
    have mem : line ∈ x.calls.map site.line := by rw [requests]; simp
    obtain ⟨call, here, rfl⟩ := List.mem_map.mp mem
    have cut : keptLine ++ upLine.take n ++ upLine.drop n = site.line call := by
      rw [List.append_assoc, List.take_append_drop, joined]
    exact (plain call here).no_upgrade cut
  | answered => simpa using empty

theorem step_link (inv : InStep site s x) {e : SessionEvent} (next : site.step x e = .ok y) :
    RequestReply.step newline site.answer (x.link site) (event site e) = .ok (y.link site) ∧
      y.server.Raw := by
  have opened := inv.raw.opened
  cases e with
  | sendMessage message =>
    rw [Site.step] at next
    split_ifs at next with reading
    obtain rfl := Except.ok.inj next
    refine ⟨?_, inv.raw⟩
    simp [event, RequestReply.step, link, reading, Site.line]
  | readData n =>
    have read := JsonClientConnection.readData_line site.qt inv.raw (inv.no_upgrade n)
    simp only [Site.step, read] at next
    split at next
    · cases next
    · rename_i daemon answered handled
      obtain rfl := Except.ok.inj next
      rw [List.drop_left] at handled
      obtain ⟨rfl, rfl⟩ := Site.handleAll_eq (c := { x.server with
        receiveBuffer := (splitLines newline (x.server.receiveBuffer ++ x.up.take n)).2
        handled := x.server.handled ++
          (splitLines newline (x.server.receiveBuffer ++ x.up.take n)).1 }) inv.raw.mode handled
      refine ⟨?_, inv.raw.opened, inv.raw.mode, ?_, ?_⟩
      · simp [event, RequestReply.step, link]
      · exact (splitLines_spec newline _).2.2
      · intro found
        have joined := (splitLines_spec newline (x.server.receiveBuffer ++ x.up.take n)).1
        have whole := inv.no_upgrade n
        rw [← joined] at whole
        exact whole (found.trans (List.suffix_append _ _).isInfix)
  | readyRead n =>
    rw [Site.step] at next
    split_ifs at next with reading
    obtain rfl := Except.ok.inj next
    refine ⟨?_, inv.raw⟩
    by_cases found : newline ∈ x.client.serializedReply ++ x.down.take n
    · simp [event, RequestReply.step, link, reading, JsonConnection.readyRead, found]
    · simp [event, RequestReply.step, link, reading, JsonConnection.readyRead, found]

theorem inStep_step (compact : ∀ message, newline ∉ site.qt.toJson message)
    (inv : InStep site s x) {e : SessionEvent}
    (plain : ∀ message, e = .sendMessage message → Plain site message)
    (next : site.step x e = .ok y) : InStep site s y := by
  obtain ⟨linked, raw⟩ := step_link inv next
  refine ⟨raw, inv.phase.step (Site.answers compact) ?_ linked, inv.whole.step linked, ?_⟩
  · intro line sent
    cases e with
    | sendMessage message =>
      obtain rfl := RequestReply.Event.request.inj sent
      exact Site.line_of_compact compact message
    | readData n | readyRead n => exact absurd sent nofun
  · cases e with
    | sendMessage message =>
      rw [Site.step] at next
      split_ifs at next
      obtain rfl := Except.ok.inj next
      intro call mem
      rcases List.mem_append.mp mem with before | here
      · exact inv.plain call before
      · exact List.mem_singleton.mp here ▸ plain message rfl
    | readData n =>
      have read := JsonClientConnection.readData_line site.qt inv.raw (inv.no_upgrade n)
      simp only [Site.step, read] at next
      split at next
      · exact absurd next nofun
      · obtain rfl := Except.ok.inj next
        exact inv.plain
    | readyRead n =>
      rw [Site.step] at next
      split_ifs at next
      obtain rfl := Except.ok.inj next
      exact inv.plain

private theorem inStep_new (s : σ) : InStep site s { daemon := s } :=
  ⟨JsonClientConnection.raw_new, .idle rfl, nofun, nofun⟩

theorem inStep_of_reaches (compact : ∀ message, newline ∉ site.qt.toJson message)
    {events : List SessionEvent}
    (plain : ∀ message, .sendMessage message ∈ events → Plain site message)
    (run : Reaches site.step { daemon := s } events x) : InStep site s x := by
  induction events using List.reverseRecOn generalizing x with
  | nil => exact reaches_nil.mp run ▸ inStep_new s
  | append_singleton events e ih =>
    obtain ⟨y, before, next⟩ := reaches_concat.mp run
    have inv := ih (fun message mem => plain message (by simp [mem])) before
    refine inStep_step compact inv (fun message same => plain message ?_) next
    simp [same]

end Session

theorem flatten_map_line {line : QJsonObject → List UInt8} {lists : List (List QJsonObject)}
    (single : ∀ replies ∈ lists, ∃ reply, replies = [reply]) :
    lists.map (fun replies => (replies.map line).flatten) = lists.flatten.map line := by
  induction lists with
  | nil => rfl
  | cons replies rest ih =>
    obtain ⟨reply, rfl⟩ := single replies (by simp)
    simpa using ih fun other mem => single other (by simp [mem])

/-- A remote control's commands are handled one after the other, however both
streams are cut: every command but at most the last has been answered with one
reply, which the remote control has read as its own. Where it reads no longer,
the daemon has handled all, and nothing is under way. -/
theorem replies_in_order {σ : Type} {site : Site σ}
    (compact : ∀ message, newline ∉ site.qt.toJson message) {s : σ} {events : List SessionEvent}
    (plain : ∀ message, .sendMessage message ∈ events →
      ¬ upgradeRequest <:+: site.qt.toJson message)
    {x : Session σ} (run : Reaches site.step { daemon := s } events x) :
    ∃ done pending, x.calls = done ++ pending ∧ pending.length ≤ 1 ∧
      (∀ replies ∈ (site.converse s done).2, ∃ reply, IsReply reply ∧ replies = [reply]) ∧
      x.client.replies = (site.converse s done).2.flatten.map site.line ∧
      ((∀ reply ∈ (site.converse s done).2.flatten,
          site.host.fromJson (site.fromUtf8 (site.line reply)) = .ok (.object reply)) →
        x.client.replies.map (JsonConnection.reply site.host site.fromUtf8) =
          (site.converse s done).2.flatten.map .ok) ∧
      (x.client.reading = false → pending = [] ∧ x.daemon = (site.converse s x.calls).1 ∧
        x.up = [] ∧ x.down = [] ∧ x.server.receiveBuffer = [] ∧ x.client.serializedReply = []) := by
  have inv := Session.inStep_of_reaches compact plain run
  obtain ⟨lines, rest, cut, short, answers, idle⟩ := inv.phase.replies
  obtain ⟨done, pending, joined, rfl, rfl⟩ := List.map_eq_append_iff.mp cut
  rw [Site.answerAll_eq] at answers idle
  have single : ∀ replies ∈ (site.converse s done).2,
      ∃ reply, IsReply reply ∧ replies = [reply] := by
    intro replies mem
    refine (Site.converse_replies s done replies mem).resolve_left ?_
    rintro rfl
    have text : [] ∈ (x.link site).replies := by
      rw [answers]
      exact List.mem_map.mpr ⟨[], mem, rfl⟩
    exact absurd (inv.whole [] text) List.not_mem_nil
  have texts : x.client.replies = (site.converse s done).2.flatten.map site.line := by
    refine answers.trans (flatten_map_line fun replies mem => ?_)
    obtain ⟨reply, -, same⟩ := single replies mem
    exact ⟨reply, same⟩
  refine ⟨done, pending, joined, by simpa using short, single, texts, ?_, ?_⟩
  · intro faithful
    rw [texts, List.map_map]
    refine List.map_congr_left fun reply mem => ?_
    rw [Function.comp_apply, JsonConnection.reply, faithful reply mem]
    rfl
  · intro stopped
    obtain ⟨none, daemon, kept, up, down, heard⟩ := idle stopped
    have last : pending = [] := List.map_eq_nil_iff.mp none
    have all : x.calls = done := by rw [joined, last, List.append_nil]
    exact ⟨last, all ▸ daemon, up, down, kept, heard⟩

def clearallText : List UInt8 := ascii "\x7b\"command\":\"clearall\"\x7d"

def successText : List UInt8 := ascii "\x7b\"command\":\"clearall\",\"success\":true,\"tan\":0\x7d"

def successReply : QJsonObject :=
  [("command", .string "clearall"), ("success", .bool true), ("tan", .double 0)]

def quietSite : Site Unit where
  host := { Host.ofMessage "" (.object []) with
    fromJson text :=
      if text.toList = HttpMessage.chars (clearallText ++ [newline]) then
        .ok (.object JsonConnection.clearAll)
      else if text.toList = HttpMessage.chars (successText ++ [newline]) then
        .ok (.object successReply)
      else .error ⟨0, "illegal value"⟩ }
  qt := {
    toJson message :=
      if message = JsonConnection.clearAll then clearallText
      else if message = successReply then successText
      else []
    sha1Base64 _ := [] }
  fromUtf8 bytes := String.ofList (HttpMessage.chars bytes)
  view _ := { files := noFiles }
  surroundings
    | .clearall, s => some (.ok (), s)
    | _, s => some (.error "", s)

theorem compact_quietSite (message : QJsonObject) : newline ∉ quietSite.qt.toJson message := by
  simp only [quietSite]
  split_ifs <;> decide

def clearallEvents : List SessionEvent :=
  [.sendMessage JsonConnection.clearAll, .readData 10, .readData 100, .readyRead 4, .readyRead 100]

def clearallSession : Session Unit where
  daemon := ()
  server := { handled := [clearallText ++ [newline]], written := successText ++ [newline] }
  client := { replies := [successText ++ [newline]] }
  calls := [JsonConnection.clearAll]

theorem reaches_clearallSession :
    Reaches quietSite.step { daemon := () } clearallEvents clearallSession := by
  have text : quietSite.line JsonConnection.clearAll = clearallText ++ [newline] := by rfl
  have raw (buffer : List UInt8) (lines : newline ∉ buffer) (plain : ¬ upgradeRequest <:+: buffer) :
      JsonClientConnection.Raw { receiveBuffer := buffer } := ⟨rfl, rfl, lines, plain⟩
  have first : JsonClientConnection.readData quietSite.qt {} ((clearallText ++ [newline]).take 10) =
      .ok { receiveBuffer := clearallText.take 10 } :=
    JsonClientConnection.readData_line quietSite.qt (raw [] (by decide) (by decide)) (by decide)
  have second : JsonClientConnection.readData quietSite.qt { receiveBuffer := clearallText.take 10 }
      (((clearallText ++ [newline]).drop 10).take 100) =
        .ok { handled := [clearallText ++ [newline]] } :=
    JsonClientConnection.readData_line quietSite.qt
      (raw (clearallText.take 10) (by decide) (by decide)) (by decide)
  let sent : Session Unit :=
    { daemon := (), client := { reading := true }, up := clearallText ++ [newline],
      calls := [JsonConnection.clearAll] }
  let half : Session Unit := { sent with
    server := { receiveBuffer := clearallText.take 10 }, up := (clearallText ++ [newline]).drop 10 }
  let handled : Session Unit := { sent with
    server := clearallSession.server, up := [], down := successText ++ [newline] }
  have reads : quietSite.step sent (.readData 10) = .ok half := by
    rw [Site.step]
    simp only [sent, first]
    rfl
  have answers : quietSite.step half (.readData 100) = .ok handled := by
    rw [Site.step]
    simp only [half, sent, second]
    rfl
  refine reaches_cons.mpr ⟨sent, by rfl, reaches_cons.mpr ⟨half, reads, reaches_cons.mpr ⟨handled,
    answers, ?_⟩⟩⟩
  rfl

theorem clearall_in_order :
    ∃ done pending, clearallSession.calls = done ++ pending ∧ pending.length ≤ 1 ∧
      clearallSession.client.replies =
        (quietSite.converse () done).2.flatten.map quietSite.line := by
  have plain : ∀ message, .sendMessage message ∈ clearallEvents →
      ¬ upgradeRequest <:+: quietSite.qt.toJson message := by
    intro message mem
    simp only [clearallEvents, List.mem_cons, SessionEvent.sendMessage.injEq, reduceCtorEq,
      List.not_mem_nil, or_false] at mem
    subst mem
    decide
  obtain ⟨done, pending, cut, short, _, replies, _⟩ :=
    replies_in_order compact_quietSite plain reaches_clearallSession
  exact ⟨done, pending, cut, short, replies⟩

end HyperionNg
