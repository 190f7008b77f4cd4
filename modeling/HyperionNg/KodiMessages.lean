import HyperionNg.JsonClientConnection
import HyperionNg.KODIVideoChecker
import HyperionNg.Library.Segments

/-! Kodi writes its messages back to back, and a read of the socket ends where
TCP cuts the stream. Every read is parsed by itself: what comes before a cut is
not kept, and two messages in one read are no document. -/

namespace HyperionNg.KODIVideoChecker

open Library.Segments

def isBlank (byte : UInt8) : Bool := byte ∈ [0x20, 0x09, 0x0a, 0x0d]

def message? (qt : QtText) (text : List UInt8) : Option QJsonObject :=
  match qt.fromJson text with
  | some (.object doc) => some doc
  | _ => none

/-- The checker, and the texts it has handled, without the blanks around them. -/
structure Received where
  checker : KODIVideoChecker
  handled : List (List UInt8) := []

def receive (qt : QtText) (s : Received) (qtreply : List UInt8) : Received :=
  match message? qt qtreply with
  | some doc =>
    { checker := s.checker.handle qt doc
      handled := s.handled ++ [strip isBlank qtreply] }
  | none => s

def received (qt : QtText) (c : KODIVideoChecker) (reads : List (List UInt8)) : Received :=
  reads.foldl (receive qt) ⟨c, []⟩

/-- JSON's grammar: the blanks around the text of an object do not matter, and
blanks alone are no object. -/
structure JsonBlanks (qt : QtText) : Prop where
  around : ∀ text, (strip isBlank text).head? = some 0x7b →
    qt.fromJson (strip isBlank text) = qt.fromJson text
  alone : ∀ text, strip isBlank text = [] → message? qt text = none

structure Message (qt : QtText) (text : List UInt8) : Prop where
  brace : (strip isBlank text).head? = some 0x7b
  isObject : (message? qt text).isSome = true

/-- Every read holds one whole message, or blanks alone. -/
def OneEach (reads messages : List (List UInt8)) : Prop :=
  (reads.map (strip isBlank)).filter (· ≠ []) = messages.map (strip isBlank)

instance (reads messages : List (List UInt8)) : Decidable (OneEach reads messages) :=
  inferInstanceAs (Decidable (_ = _))

variable {qt : QtText} {s : Received} {c : KODIVideoChecker} {text other : List UInt8}

theorem foldl_receive_handled (reads : List (List UInt8)) :
    (reads.foldl (receive qt) s).handled =
      s.handled ++ (reads.filter fun text => (message? qt text).isSome).map (strip isBlank) := by
  induction reads generalizing s with
  | nil => simp
  | cons text rest ih =>
    rw [List.foldl_cons, ih]
    cases parsed : message? qt text with
    | none => simp [receive, parsed]
    | some doc => simp [receive, parsed]

private theorem received_handled (reads : List (List UInt8)) : (received qt c reads).handled =
    (reads.filter fun text => (message? qt text).isSome).map (strip isBlank) :=
  (foldl_receive_handled reads).trans (List.nil_append _)

private theorem message?_eq (blanks : JsonBlanks qt) (message : Message qt other)
    (same : strip isBlank text = strip isBlank other) : message? qt text = message? qt other := by
  have first := blanks.around text (same ▸ message.brace)
  have second := blanks.around other message.brace
  rw [message?, message?, ← first, ← second, same]

theorem received_eq (blanks : JsonBlanks qt) {reads messages : List (List UInt8)}
    (all : ∀ message ∈ messages, Message qt message) (oneEach : OneEach reads messages) :
    received qt c reads = received qt c messages := by
  refine foldl_eq_of_strip ?_ ?_ oneEach _
  · intro s text blank
    rw [receive, blanks.alone text blank]
  · intro s text message mem same
    rw [receive, receive, message?_eq blanks (all message mem) same, same]

/-- However Kodi's messages are cut into reads, the same ones are handled, in
the same order, as with a read for each exactly when each read holds one. -/
theorem handled_eq_iff (qt : QtText) (blanks : JsonBlanks qt) (c : KODIVideoChecker)
    {messages reads : List (List UInt8)} (all : ∀ message ∈ messages, Message qt message)
    (cut : reads.flatten = messages.flatten) :
    (received qt c reads).handled = (received qt c messages).handled ↔
      OneEach reads messages := by
  refine ⟨fun same => ?_, fun oneEach => by rw [received_eq blanks all oneEach]⟩
  rw [received_handled, received_handled,
    List.filter_eq_self.mpr fun message mem => (all message mem).isObject] at same
  have others := strip_eq_nil_of_matches cut same
  rw [OneEach, List.filter_map, ← same]
  congr 1
  refine List.filter_congr fun text mem => ?_
  cases parsed : (message? qt text).isSome with
  | true =>
    have solid : strip isBlank text ≠ [] := fun blank => by
      rw [blanks.alone text blank] at parsed
      exact absurd parsed nofun
    simpa using solid
  | false => simpa using others text mem parsed

/-- Qt on braces and blanks: two braces are the one object. -/
def braces : QtText where
  fromJson text := if solid isBlank text = ascii "\x7b\x7d" then some (.object []) else none
  contains text part := decide (part.toLower.toList <:+: text.toLower.toList)

private theorem braces_blanks : JsonBlanks braces where
  around text _ := by simp [braces]
  alone text blank := by
    have none : braces.fromJson text = none :=
      if_neg (by rw [strip_eq_nil_iff.mp blank]; decide)
    rw [message?, none]

theorem moved_blank_handled : (received braces (.create true true true true true true)
      [ascii "\x7b\x7d ", ascii "\x7b\x7d"]).handled =
    (received braces (.create true true true true true true)
      [ascii "\x7b\x7d", ascii " \x7b\x7d"]).handled := by
  refine (handled_eq_iff braces braces_blanks _ ?_ (by decide)).mpr (by decide)
  intro message mem
  simp only [List.mem_cons, List.not_mem_nil, or_false] at mem
  rcases mem with rfl | rfl <;> exact ⟨by decide, by decide⟩

def screensaverActivated : List UInt8 :=
  ascii "\x7b\"jsonrpc\":\"2.0\",\"method\":\"GUI.OnScreensaverActivated\"\x7d"

def playerStopped : List UInt8 :=
  ascii "\x7b\"jsonrpc\":\"2.0\",\"method\":\"Player.OnStop\"\x7d"

/-- Qt on these two texts. -/
def notices : QtText where
  fromJson text := [(screensaverActivated, Json.object [("jsonrpc", .string "2.0"),
      ("method", .string "GUI.OnScreensaverActivated")]),
    (playerStopped, Json.object [("jsonrpc", .string "2.0"),
      ("method", .string "Player.OnStop")])].lookup (strip isBlank text)
  contains text part := decide (part.toLower.toList <:+: text.toLower.toList)

/-- Two messages in one read are both lost, and the grabbing mode stays. -/
theorem coalesced_messages_lost :
    [screensaverActivated ++ playerStopped].flatten =
      [screensaverActivated, playerStopped].flatten ∧
    (∀ message ∈ [screensaverActivated, playerStopped], Message notices message) ∧
    (received notices (.create true true true true true true)
      [screensaverActivated, playerStopped]).handled = [screensaverActivated, playerStopped] ∧
    (received notices (.create true true true true true true)
      [screensaverActivated, playerStopped]).checker.grabbingModes = [.screensaver, .menu] ∧
    received notices (.create true true true true true true)
      [screensaverActivated ++ playerStopped] = ⟨.create true true true true true true, []⟩ := by
  have parsed : (∀ message ∈ [screensaverActivated, playerStopped],
      (strip isBlank message).head? = some 0x7b ∧ (message? notices message).isSome = true) ∧
      message? notices (screensaverActivated ++ playerStopped) = none := by
    decide +kernel
  have handled : (received notices (.create true true true true true true)
        [screensaverActivated, playerStopped]).handled = [screensaverActivated, playerStopped] ∧
      (received notices (.create true true true true true true)
        [screensaverActivated, playerStopped]).checker.grabbingModes = [.screensaver, .menu] := by
    decide +kernel
  refine ⟨rfl, fun message mem => ⟨(parsed.1 message mem).1, (parsed.1 message mem).2⟩,
    handled.1, handled.2, ?_⟩
  rw [received, List.foldl_cons, List.foldl_nil, receive, parsed.2]

end HyperionNg.KODIVideoChecker
