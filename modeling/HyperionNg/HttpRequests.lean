import HyperionNg.QtHttpClientWrapper

/-! What the web server reads of a request, whose head is taken apart in lines.
The lines of a head have to arrive whole, and one piece has to end where the
body does. -/

namespace HyperionNg

open Library HttpMessage Lines QByteArray QtHttpHeader

/-- What a read is taken apart in: the lines, and what has no line end yet. -/
def pieces (available : List UInt8) : List (List UInt8) :=
  (splitLines lineEnd available).1 ++ [(splitLines lineEnd available).2].filter (· ≠ [])

namespace QtHttpClientWrapper

variable {server : QtHttpServer}

def turn (server : QtHttpServer) (c : QtHttpClientWrapper) (piece : List UInt8) :
    QtHttpClientWrapper × Bool :=
  answer server { c with parsingStatus := parseLine server piece c.parsingStatus }

def readPieces (server : QtHttpServer) (c : QtHttpClientWrapper) :
    List (List UInt8) → QtHttpClientWrapper
  | [] => c
  | piece :: rest =>
    if c.closed then c
    else if (turn server c piece).2 then readPieces server (turn server c piece).1 rest
    else (turn server c piece).1

private theorem readPieces_of_closed {c : QtHttpClientWrapper} (isClosed : c.closed = true)
    (parts : List (List UInt8)) : readPieces server c parts = c := by
  cases parts with
  | nil => rfl
  | cons piece rest => rw [readPieces, if_pos isClosed]

inductive Reads (server : QtHttpServer) :
    QtHttpClientWrapper → List (List UInt8) → QtHttpClientWrapper → Prop
  | nil (c : QtHttpClientWrapper) : Reads server c [] c
  | cons {c d e : QtHttpClientWrapper} {piece : List UInt8} {rest : List (List UInt8)}
    (isOpen : c.closed = false) (step : turn server c piece = (d, true))
    (later : Reads server d rest e) : Reads server c (piece :: rest) e
  | closed {c : QtHttpClientWrapper} (isClosed : c.closed = true) (rest : List (List UInt8)) :
    Reads server c rest c

theorem Reads.eq_of_closed {c d : QtHttpClientWrapper} {parts : List (List UInt8)}
    (reads : Reads server c parts d) (isClosed : c.closed = true) : d = c := by
  cases reads with
  | cons isOpen => exact absurd (isOpen.symm.trans isClosed) Bool.false_ne_true
  | nil | closed => rfl

theorem Reads.append {c d e : QtHttpClientWrapper} {first second : List (List UInt8)}
    (before : Reads server c first d) (after : Reads server d second e) :
    Reads server c (first ++ second) e := by
  induction before with
  | nil c => exact after
  | cons isOpen step _ ih => exact .cons isOpen step (ih after)
  | closed isClosed rest =>
    obtain rfl := after.eq_of_closed isClosed
    exact .closed isClosed _

private theorem foldl_of_closed {c : QtHttpClientWrapper} (isClosed : c.closed = true)
    (arrivals : List (List (List UInt8))) : arrivals.foldl (readPieces server) c = c := by
  induction arrivals with
  | nil => rfl
  | cons parts rest ih => rw [List.foldl_cons, readPieces_of_closed isClosed, ih]

theorem foldl_cons_of_flatten {c d : QtHttpClientWrapper} {piece : List UInt8}
    (isOpen : c.closed = false) (step : turn server c piece = (d, true))
    {arrivals : List (List (List UInt8))} {rest : List (List UInt8)}
    (joined : arrivals.flatten = piece :: rest) :
    ∃ later : List (List (List UInt8)), later.flatten = rest ∧
      arrivals.foldl (readPieces server) c = later.foldl (readPieces server) d := by
  induction arrivals with
  | nil => exact absurd joined nofun
  | cons parts others ih =>
    cases parts with
    | nil =>
      obtain ⟨later, same, folded⟩ := ih joined
      exact ⟨later, same, folded⟩
    | cons first parts =>
      obtain ⟨rfl, behind⟩ := List.cons.inj joined
      refine ⟨parts :: others, behind, ?_⟩
      rw [List.foldl_cons, List.foldl_cons, readPieces, if_neg (by simp [isOpen]), step]
      rfl

theorem Reads.foldl {c d : QtHttpClientWrapper} {first : List (List UInt8)}
    (reads : Reads server c first d) {arrivals : List (List (List UInt8))}
    {rest : List (List UInt8)} (joined : arrivals.flatten = first ++ rest) :
    ∃ later : List (List (List UInt8)), later.flatten = rest ∧
      arrivals.foldl (readPieces server) c = later.foldl (readPieces server) d := by
  induction reads generalizing arrivals with
  | nil c => exact ⟨arrivals, joined, rfl⟩
  | cons isOpen step _ ih =>
    obtain ⟨later, same, folded⟩ := foldl_cons_of_flatten isOpen step joined
    obtain ⟨last, done, further⟩ := ih same
    exact ⟨last, done, folded.trans further⟩
  | closed isClosed first =>
    refine ⟨[rest], by simp, ?_⟩
    rw [foldl_of_closed isClosed, foldl_of_closed isClosed]

end QtHttpClientWrapper

/-! What is read of a request. -/

namespace QHash

theorem value_insert (hash : QHash) (key other value : List UInt8) :
    (hash.insert key value).value other = if other = key then value else hash.value other := by
  by_cases same : other = key
  · simp [QHash.value, insert, same]
  · have kept : (hash.filter (·.1 ≠ key)).find? (·.1 = other) = hash.find? (·.1 = other) := by
      rw [List.find?_filter]
      refine congrArg (List.find? · hash) (funext fun entry => ?_)
      by_cases here : entry.1 = other
      · simp [here, same]
      · simp [here]
    rw [if_neg same, QHash.value, QHash.value, insert,
      List.find?_cons_of_neg (by simpa using Ne.symm same), kept]

end QHash

theorem addHeader_of_plain (hash : QHash) {header : List UInt8} (plain : Plain header)
    (some : header ≠ []) (value : List UInt8) :
    addHeader hash header value = hash.insert header value := by
  have stripped : trimmed header = header := plain.stripped
  rw [addHeader, stripped, if_neg some]

structure Word (text : List UInt8) : Prop where
  nonempty : text ≠ []
  visible : ∀ b ∈ text, 33 ≤ b ∧ b ≤ 126

theorem toNat_ofNat_of_visible {b : UInt8} (visible : 33 ≤ b ∧ b ≤ 126) :
    33 ≤ (Char.ofNat b.toNat).toNat ∧ (Char.ofNat b.toNat).toNat ≤ 126 := by
  have low : 33 ≤ b.toNat := visible.1
  have high : b.toNat ≤ 126 := visible.2
  have same : (Char.ofNat b.toNat).toNat = b.toNat := by
    rw [Char.ofNat, dif_pos (Or.inl (by omega))]
    rfl
  omega

namespace Word

variable {text : List UInt8}

theorem isSpace (word : Word text) : ∀ c ∈ chars text, QString.isSpace c = false := by
  intro c mem
  obtain ⟨b, here, rfl⟩ := List.mem_map.mp mem
  have visible := toNat_ofNat_of_visible (word.visible b here)
  simp [QString.isSpace]
  omega

theorem not_mem (word : Word text) : ' ' ∉ chars text := by
  intro mem
  exact absurd (word.isSpace _ mem) (by decide)

end Word

def commandLine (command url version : List UInt8) : List UInt8 :=
  command ++ space :: (url ++ space :: version)

/-- A request as a browser sends it. -/
structure SentRequest where
  command : List UInt8
  url : List UInt8
  fields : List Field
  body : List UInt8
deriving DecidableEq

namespace SentRequest

def message (r : SentRequest) : HttpMessage.Message :=
  ⟨commandLine r.command r.url (bytes httpVersion), r.fields, r.body⟩

structure WellFormed (r : SentRequest) : Prop where
  command : Word r.command
  url : Word r.url
  fields : ∀ f ∈ r.fields, f.WellFormed
  length : ∀ f ∈ r.fields, f.name = lengthName → f.value = decimal r.body.length
  given : r.body ≠ [] → ∃ f ∈ r.fields, f.name = lengthName
  short : r.body.length < 2 ^ 31

def head (r : SentRequest) : HttpRequest :=
  let request : HttpRequest := { url := chars r.url, command := chars r.command }
  { request with
    headersHash := r.fields.foldl (fun hash f => hash.insert f.name f.value) request.headersHash }

def received (server : QtHttpServer) (r : SentRequest) : HttpRequest :=
  HttpRequest.setPostData server { r.head with data := r.body }

end SentRequest

namespace QtHttpClientWrapper

variable {server : QtHttpServer}

end QtHttpClientWrapper

theorem mem_decimal {n : Nat} : ∀ b ∈ decimal n, 48 ≤ b ∧ b ≤ 57 := by
  intro b mem
  obtain ⟨c, here, rfl⟩ := List.mem_map.mp mem
  have digit := toNat_of_isDigit (Nat.isDigit_of_mem_toDigits (by decide) (by decide) here)
  have same : (UInt8.ofNat c.toNat).toNat = c.toNat :=
    UInt8.toNat_ofNat_of_lt' (show c.toNat < 256 by omega)
  exact ⟨UInt8.le_iff_toNat_le.mpr (by rw [same]; exact digit.1),
    UInt8.le_iff_toNat_le.mpr (by rw [same]; exact digit.2)⟩

theorem plain_of_forall {text : List UInt8} (solid : ∀ b ∈ text, blank b = false) : Plain text := by
  constructor
  · intro mem
    exact absurd (solid _ mem) (by decide)
  · rw [Segments.strip_eq_self_iff]
    exact ⟨fun b mem => solid b (List.mem_of_mem_head? mem),
      fun b mem => solid b (List.mem_of_mem_getLast? mem)⟩

theorem plain_of_any {text : List UInt8} (solid : text.any blank = false) : Plain text :=
  plain_of_forall fun b mem => by simpa using List.any_eq_false.mp solid b mem

theorem plain_decimal (n : Nat) : Plain (decimal n) := by
  refine plain_of_forall fun b mem => ?_
  have digit := mem_decimal b mem
  have low : 48 ≤ b.toNat := digit.1
  simp [blank, ← UInt8.toNat_inj, UInt8.le_iff_toNat_le]
  omega

theorem lengthName_eq : contentLength = lengthName := rfl

theorem plain_lengthName : Plain lengthName := plain_of_any (by decide)

namespace SentRequest

variable {r : SentRequest}

end SentRequest

namespace QtHttpClientWrapper

variable {server : QtHttpServer}

def withStatus (c : QtHttpClientWrapper) (parsingStatus : ParsingStatus) : QtHttpClientWrapper :=
  { c with parsingStatus }

def serve (server : QtHttpServer) (c : QtHttpClientWrapper) (request : HttpRequest) :
    QtHttpClientWrapper :=
  (answer server (c.withStatus (.requestParsed request))).1

end QtHttpClientWrapper

end HyperionNg
