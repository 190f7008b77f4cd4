import HyperionNg.JsonClientConnection
import HyperionNg.Library.Execution

/-! Lines on a raw connection. Every read is searched for an upgrade request
first, together with the tail it follows; so a message that contains the text
of one is taken for it, wherever the stream is cut. -/

namespace HyperionNg.JsonClientConnection

open Library Library.Execution Lines

structure Delivered (c : JsonClientConnection) (received : List UInt8) : Prop where
  handled : c.handled = (splitLines newline received).1
  kept : c.receiveBuffer = (splitLines newline received).2

/-- Whatever number of the reads has arrived, their lines are delivered; and
after all of them exactly the messages. -/
def DeliversMessages (qt : Qt) (messages : List (List UInt8)) (tail : List UInt8)
    (reads : List (List UInt8)) : Prop :=
  (∀ k ≤ reads.length, ∃ c, Reaches (readData qt) {} (reads.take k) c ∧
    c.Delivered (reads.take k).flatten) ∧
  ∃ c, Reaches (readData qt) {} reads c ∧ c.handled = messages.map (· ++ [newline]) ∧
    c.receiveBuffer = tail

theorem newline_not_mem_upgradeRequest : newline ∉ upgradeRequest := by decide

structure Raw (c : JsonClientConnection) : Prop where
  opened : c.closed = false
  mode : c.webSocketHandshakeDone = false
  unterminated : newline ∉ c.receiveBuffer
  request : ¬ upgradeRequest <:+: c.receiveBuffer

variable {c : JsonClientConnection}

theorem readData_line (qt : Qt) (raw : c.Raw) {bytes : List UInt8}
    (request : ¬ upgradeRequest <:+: c.receiveBuffer ++ bytes) :
    c.readData qt bytes = .ok { c with
      receiveBuffer := (splitLines newline (c.receiveBuffer ++ bytes)).2
      handled := c.handled ++ (splitLines newline (c.receiveBuffer ++ bytes)).1 } := by
  have opened := raw.opened
  have mode := raw.mode
  simp [readData, opened, mode, request, readLines_eq]

theorem readData_request (qt : Qt) (raw : c.Raw) {bytes : List UInt8}
    (request : upgradeRequest <:+: c.receiveBuffer ++ bytes) :
    ∃ d, c.readData qt bytes = .ok d ∧ d.handled = c.handled ∧ d.receiveBuffer = [] := by
  have opened := raw.opened
  have mode := raw.mode
  refine ⟨doWebSocketHandshake qt { c with receiveBuffer := c.receiveBuffer ++ bytes },
    ?_, rfl, rfl⟩
  simp [readData, opened, mode, request]

theorem request_splitLines (bytes more : List UInt8) :
    upgradeRequest <:+: bytes ++ more ↔ upgradeRequest <:+: bytes ∨
      upgradeRequest <:+: (splitLines newline bytes).2 ++ more := by
  obtain ⟨joined, all, _⟩ := splitLines_spec newline bytes
  have absent := newline_not_mem_upgradeRequest
  have whole := infix_flatten_append all absent ((splitLines newline bytes).2 ++ more)
  have alone := infix_flatten_append all absent (splitLines newline bytes).2
  rw [← List.append_assoc, joined] at whole
  rw [joined] at alone
  rw [whole, alone]
  constructor
  · exact fun found => found.imp_left Or.inl
  · rintro ((found | found) | found)
    · exact Or.inl found
    · exact Or.inr (found.trans List.infix_append_left)
    · exact Or.inr found

def Follows (qt : Qt) (c : JsonClientConnection) (reads : List (List UInt8)) : Prop :=
  ∀ k ≤ reads.length, ∃ d, Reaches (readData qt) c (reads.take k) d ∧
    d.handled = c.handled ++ (splitLines newline (c.receiveBuffer ++ (reads.take k).flatten)).1 ∧
    d.receiveBuffer = (splitLines newline (c.receiveBuffer ++ (reads.take k).flatten)).2

variable {qt : Qt}

theorem follows_cons {bytes : List UInt8} (rest : List (List UInt8))
    (raw : c.Raw) (request : ¬ upgradeRequest <:+: c.receiveBuffer ++ bytes) :
    ∃ d : JsonClientConnection, d.Raw ∧
      d.receiveBuffer = (splitLines newline (c.receiveBuffer ++ bytes)).2 ∧
      (Follows qt c (bytes :: rest) ↔ Follows qt d rest) := by
  have step := readData_line qt raw request
  obtain ⟨joined, _, unterminated⟩ :=
    splitLines_spec newline (c.receiveBuffer ++ bytes)
  generalize hd : { c with
    receiveBuffer := (splitLines newline (c.receiveBuffer ++ bytes)).2
    handled := c.handled ++ (splitLines newline (c.receiveBuffer ++ bytes)).1 } = d at step
  have buffer : d.receiveBuffer = (splitLines newline (c.receiveBuffer ++ bytes)).2 :=
    hd ▸ rfl
  have handled : d.handled = c.handled ++ (splitLines newline (c.receiveBuffer ++ bytes)).1 :=
    hd ▸ rfl
  have later : ∀ more : List UInt8,
      c.handled ++ (splitLines newline (c.receiveBuffer ++ (bytes ++ more))).1 =
        d.handled ++ (splitLines newline (d.receiveBuffer ++ more)).1 ∧
      (splitLines newline (c.receiveBuffer ++ (bytes ++ more))).2 =
        (splitLines newline (d.receiveBuffer ++ more)).2 := by
    intro more
    rw [← List.append_assoc, splitLines_append, buffer, handled, List.append_assoc]
    exact ⟨rfl, rfl⟩
  refine ⟨d, ⟨hd ▸ raw.opened, hd ▸ raw.mode, buffer ▸ unterminated, ?_⟩, buffer, ?_⟩
  · intro found
    rw [buffer] at found
    refine request (found.trans ?_)
    conv_rhs => rw [← joined]
    exact List.infix_append_right
  · constructor
    · intro follows k hk
      obtain ⟨e, run, ended⟩ := follows (k + 1) (by simpa using hk)
      obtain ⟨d', stepped, run⟩ := reaches_cons.mp run
      rw [step] at stepped
      rw [List.take_succ_cons, List.flatten_cons, (later _).1, (later _).2] at ended
      exact ⟨e, Except.ok.inj stepped ▸ run, ended⟩
    · intro follows k hk
      cases k with
      | zero =>
        refine ⟨c, reaches_nil.mpr rfl, ?_⟩
        simp [splitLines_of_not_mem raw.unterminated]
      | succ k =>
        obtain ⟨e, run, ended⟩ := follows k (by simpa using hk)
        refine ⟨e, reaches_cons.mpr ⟨d, step, run⟩, ?_⟩
        rw [List.take_succ_cons, List.flatten_cons, (later _).1, (later _).2]
        exact ended

theorem not_follows_request {bytes : List UInt8} {rest : List (List UInt8)}
    (raw : c.Raw) (request : upgradeRequest <:+: c.receiveBuffer ++ bytes) :
    ¬ Follows qt c (bytes :: rest) := by
  intro follows
  obtain ⟨d, step, handled, buffer⟩ := readData_request qt raw request
  obtain ⟨joined, _, _⟩ := splitLines_spec newline (c.receiveBuffer ++ bytes)
  obtain ⟨d', run, handled', buffer'⟩ := follows 1 (by simp)
  obtain ⟨u, stepped, done⟩ := reaches_cons.mp run
  have same : d' = d := by
    rw [← reaches_nil.mp done]
    exact Except.ok.inj (stepped.symm.trans step)
  rw [same, handled] at handled'
  rw [same, buffer] at buffer'
  simp only [List.take_succ_cons, List.take_zero, List.flatten_cons, List.flatten_nil,
    List.append_nil, List.self_eq_append_right] at handled' buffer'
  rw [← joined, handled', ← buffer'] at request
  exact absurd request (by decide)

theorem follows_iff (raw : c.Raw) (reads : List (List UInt8)) :
    Follows qt c reads ↔ ¬ upgradeRequest <:+: c.receiveBuffer ++ reads.flatten := by
  induction reads generalizing c with
  | nil =>
    rw [List.flatten_nil, List.append_nil]
    refine iff_of_true ?_ raw.request
    intro k _
    rw [List.take_nil]
    refine ⟨c, reaches_nil.mpr rfl, ?_⟩
    simp [splitLines_of_not_mem raw.unterminated]
  | cons bytes rest ih =>
    by_cases request : upgradeRequest <:+: c.receiveBuffer ++ bytes
    · refine iff_of_false (not_follows_request raw request) (not_not_intro ?_)
      rw [List.flatten_cons, ← List.append_assoc]
      exact request.trans List.infix_append_left
    · obtain ⟨d, rawNext, buffer, same⟩ := follows_cons rest raw request
      rw [same, ih rawNext, buffer, List.flatten_cons, ← List.append_assoc,
        request_splitLines (c.receiveBuffer ++ bytes), not_or, and_iff_right request]

theorem splitLines_messages {messages : List (List UInt8)} {tail : List UInt8}
    (lines : ∀ message ∈ messages, newline ∉ message) (unterminated : newline ∉ tail) :
    splitLines newline ((messages.map (· ++ [newline])).flatten ++ tail) =
      (messages.map (· ++ [newline]), tail) := by
  have all : ∀ line ∈ messages.map (· ++ [newline]), Line newline line := by
    intro line mem
    obtain ⟨message, hmessage, rfl⟩ := List.mem_map.mp mem
    exact ⟨message, lines message hmessage, rfl⟩
  rw [splitLines_flatten all, splitLines_of_not_mem unterminated, List.append_nil]

theorem request_messages (messages : List (List UInt8)) (tail : List UInt8) :
    upgradeRequest <:+: (messages.map (· ++ [newline])).flatten ++ tail ↔
      (∃ message ∈ messages, upgradeRequest <:+: message) ∨ upgradeRequest <:+: tail := by
  induction messages with
  | nil => simp
  | cons message rest ih =>
    have first : upgradeRequest <:+: (List.map (· ++ [newline]) (message :: rest)).flatten ++ tail ↔
        upgradeRequest <:+: message ∨
          upgradeRequest <:+: (rest.map (· ++ [newline])).flatten ++ tail := by
      rw [List.map_cons, List.flatten_cons, List.append_assoc, List.append_assoc,
        List.singleton_append]
      constructor
      · exact infix_of_terminated newline_not_mem_upgradeRequest
      · rintro (found | found)
        · exact found.trans List.infix_append_left
        · exact found.trans ((List.suffix_cons _ _).isInfix.trans List.infix_append_right)
    rw [first, ih, List.exists_mem_cons_iff, or_assoc]

theorem raw_new : ({} : JsonClientConnection).Raw where
  opened := rfl
  mode := rfl
  unterminated := by simp
  request := by decide

theorem follows_new_iff (qt : Qt) (reads : List (List UInt8)) :
    Follows qt {} reads ↔ ∀ k ≤ reads.length, ∃ c, Reaches (readData qt) {} (reads.take k) c ∧
      c.Delivered (reads.take k).flatten := by
  refine forall₂_congr fun k _ => exists_congr fun c => and_congr_right fun _ => ?_
  simp only [List.nil_append]
  exact ⟨fun ⟨handled, kept⟩ => ⟨handled, kept⟩, fun ⟨handled, kept⟩ => ⟨handled, kept⟩⟩

/-- The messages of a raw connection are delivered, whatever the reads are,
exactly when neither they nor the tail contain `Upgrade: websocket`. -/
theorem deliversMessages_iff (qt : Qt) (messages : List (List UInt8)) (tail : List UInt8)
    (reads : List (List UInt8)) (lines : ∀ message ∈ messages, newline ∉ message)
    (unterminated : newline ∉ tail)
    (sent : reads.flatten = (messages.map (· ++ [newline])).flatten ++ tail) :
    DeliversMessages qt messages tail reads ↔
      (∀ message ∈ messages, ¬ upgradeRequest <:+: message) ∧ ¬ upgradeRequest <:+: tail := by
  have clean : Follows qt {} reads ↔
      (∀ message ∈ messages, ¬ upgradeRequest <:+: message) ∧ ¬ upgradeRequest <:+: tail := by
    rw [follows_iff raw_new, List.nil_append, sent, request_messages, not_or]
    simp only [not_exists, not_and]
  have split := splitLines_messages lines unterminated
  rw [← clean, DeliversMessages, ← follows_new_iff]
  refine and_iff_left_of_imp fun follows => ?_
  obtain ⟨c, run, handled, kept⟩ := follows reads.length le_rfl
  rw [List.take_length] at run handled kept
  have whole : ({} : JsonClientConnection).receiveBuffer ++ reads.flatten =
      (messages.map (· ++ [newline])).flatten ++ tail := sent
  rw [whole, split] at handled kept
  exact ⟨c, run, handled, kept⟩

theorem deliversMessages_split :
    DeliversMessages .silent [ascii "\x7b\x7d"] [] [ascii "\x7b", ascii "\x7d\n"] ↔
      (∀ message ∈ [ascii "\x7b\x7d"], ¬ upgradeRequest <:+: message) ∧
        ¬ upgradeRequest <:+: [] :=
  deliversMessages_iff .silent [ascii "\x7b\x7d"] [] [ascii "\x7b", ascii "\x7d\n"] (by decide)
    (by decide) (by decide)

/-- An effect named like the request: its message is never handled. -/
theorem upgrade_in_message :
    ¬ DeliversMessages .silent [ascii "\x7b\"name\":\"Upgrade: websocket\"\x7d"] []
      [ascii "\x7b\"name\":\"Upgrade: websocket\"\x7d\n"] := by
  rintro ⟨_, c, run, handled, _⟩
  obtain ⟨d, step, done⟩ := reaches_cons.mp run
  have request : upgradeRequest <:+:
      [] ++ ascii "\x7b\"name\":\"Upgrade: websocket\"\x7d\n" := by decide
  obtain ⟨d', answered, unhandled, _⟩ := readData_request .silent raw_new request
  have same : c = d' := by
    rw [← reaches_nil.mp done]
    exact Except.ok.inj (step.symm.trans answered)
  rw [same, unhandled] at handled
  exact absurd handled (by decide)

end HyperionNg.JsonClientConnection
