import HyperionNg.Library.Paths
import HyperionNg.QtHttpClientWrapper

/-! The web server of the configuration pages. The path of a request is
appended to the document root as it stands, so a file that is sent lies where
the parent components of the path lead, which need not be below the root. -/

namespace HyperionNg

open Library Library.Paths

abbrev Location := List (List Char)

inductive Entry
  | directory
  | file (data : Option (List UInt8))
deriving DecidableEq

abbrev DirectoryTree := Location → Option Entry

inductive StatusCode
  | ok
  | forbidden
  | notFound
  | methodNotAllowed
  | internalError
deriving DecidableEq, Repr

def StatusCode.toNat : StatusCode → Nat
  | .ok => 200
  | .forbidden => 403
  | .notFound => 404
  | .methodNotAllowed => 405
  | .internalError => 500

/-- What is called on a reply, with the files opened and sent in it, in order. -/
structure Answer where
  calls : List ReplyCall := []
  files : List Location := []
deriving DecidableEq

def QByteArrayLiteral (text : String) : List UInt8 := text.toList.map fun c => UInt8.ofNat c.toNat

/-- `QByteArray::replace`; the first argument counts what is left of a match. -/
def QByteArray.replace (before after : List UInt8) : Nat → List UInt8 → List UInt8
  | _, [] => []
  | skip + 1, _ :: rest => replace before after skip rest
  | 0, c :: rest =>
    if before <+: c :: rest then after ++ replace before after (before.length - 1) rest
    else c :: replace before after 0 rest

/-- The server with the parts that are not its own: the path of a `QUrl`, the encoding
of the locale, the MIME database, and the CGI handler, which may throw. The document
root is not empty: `WebConfig` sees to that. -/
structure StaticFileServing where
  baseUrl : List Char
  baseUrl_ne_nil : baseUrl ≠ []
  workingDirectory : Location
  urlPath : List Char → List Char
  toLocal8Bit : List Char → List UInt8
  mimeTypeForFile : List Char → List Char
  exec : List (List Char) → HttpRequest → List ReplyCall × Bool

namespace StaticFileServing

variable (server : StaticFileServing) (fs : DirectoryTree)

def locate (name : List Char) : Location :=
  resolve '/' '.' (if name.head? = some '/' then [] else server.workingDirectory) name

def documentRoot : Location := server.locate server.baseUrl

/-- `QFile::open` and `readAll`. -/
def readAll (name : List Char) : Option (List UInt8) :=
  match fs (server.locate name) with
  | some (.file data) => data
  | _ => none

def isDir (name : List Char) : Bool := fs (server.locate name) = some .directory

def sendFile (name : List Char) (convert : List UInt8 → List UInt8) (answer : Answer) : Answer :=
  match server.readAll fs name with
  | some data =>
    ⟨answer.calls ++ [.appendRawData (convert data)], answer.files ++ [server.locate name]⟩
  | none => answer

def errorPage (name : String) : List Char := server.baseUrl ++ '/' :: ("errorpages/" ++ name).toList

def printErrorToReply (answer : Answer) (code : StatusCode) (errorMessage : List Char) : Answer :=
  let calls := answer.calls ++ [.setStatusCode code.toNat,
    .addHeader (QByteArrayLiteral "Content-Type") (QByteArrayLiteral "text/html")]
  let answer := server.sendFile fs (server.errorPage "header.html") id { answer with calls }
  let page := server.errorPage (toString code.toNat ++ ".html")
  let answer :=
    if (server.readAll fs page).isSome then
      server.sendFile fs page (QByteArray.replace (QByteArrayLiteral "\x7bMESSAGE\x7d")
        (server.toLocal8Bit errorMessage) 0) answer
    else
      let text := (toString code.toNat ++ " - ").toList ++ errorMessage
      { answer with calls := answer.calls ++ [.appendRawData (server.toLocal8Bit text)] }
  server.sendFile fs (server.errorPage "footer.html") id answer

def servedPath (path : List Char) : List Char :=
  if path = ['/'] ∨ path = [] then "index.html".toList
  else if server.isDir fs (server.baseUrl ++ '/' :: path) then
    if path.getLast? = some '/' then path ++ "index.html".toList
    else path ++ "/index.html".toList
  else path

def uriParts (path : List Char) : List (List Char) :=
  (components '/' path).filter fun part => part ≠ []

/-- `request->getUrl ().path ()` -/
def path (request : HttpRequest) : List Char := server.urlPath request.url

def onRequestNeedsReply (request : HttpRequest) : Answer :=
  if request.command = "GET".toList ∨ request.command = "POST".toList then
    let parts := uriParts (server.path request)
    if parts.head? = some "cgi".toList then
      let (calls, threw) := server.exec parts.tail request
      if threw then
        server.printErrorToReply fs ⟨calls, []⟩ .internalError
          ("script failed (".toList ++ server.path request ++ ")".toList)
      else ⟨calls, []⟩
    else
      let path := server.servedPath fs (server.path request)
      let file := server.baseUrl ++ '/' :: path
      if (fs (server.locate file)).isSome then
        match server.readAll fs file with
        | some data =>
          ⟨[.addHeader (QByteArrayLiteral "Content-Type")
              (server.toLocal8Bit (server.mimeTypeForFile file)), .appendRawData data],
            [server.locate file]⟩
        | none => server.printErrorToReply fs {} .forbidden ("Requested file: ".toList ++ path)
      else server.printErrorToReply fs {} .notFound ("Requested file: ".toList ++ path)
  else
    server.printErrorToReply fs {} .methodNotAllowed
      ("Unhandled HTTP/1.1 method ".toList ++ request.command)

theorem locate_baseUrl (path : List Char) :
    server.locate (server.baseUrl ++ '/' :: path) =
      (reduce '/' '.' path).apply server.documentRoot := by
  have same : (server.baseUrl ++ '/' :: path).head? = server.baseUrl.head? := by
    rw [List.head?_append, Option.or_of_isSome]
    rw [List.isSome_head?]
    exact server.baseUrl_ne_nil
  rw [locate, same, resolve_append, ← resolve_eq]
  rfl

/-- The path, on its own, does not leave the document root for good. -/
def StaysInside (path : List Char) : Prop :=
  server.documentRoot.drop (server.documentRoot.length - (reduce '/' '.' path).climbs) <+:
    (reduce '/' '.' path).names

theorem prefix_locate_iff (path : List Char) :
    server.documentRoot <+: server.locate (server.baseUrl ++ '/' :: path) ↔
      server.StaysInside path := by
  rw [locate_baseUrl]
  exact Relative.prefix_apply_iff _ _

private theorem staysInside_of_no_dots {path : List Char} (absent : ¬ ['.', '.'] <:+: path) :
    server.StaysInside path := by
  have flat := climbs_eq_zero '/' '.' fun mem => absent (isInfix_of_mem_components '/' mem)
  rw [StaysInside, flat, Nat.sub_zero, List.drop_length]
  exact List.nil_prefix

theorem errorPage_inside (name : String) (flat : ¬ ['.', '.'] <:+: ("errorpages/" ++ name).toList) :
    server.documentRoot <+: server.locate (server.errorPage name) :=
  (server.prefix_locate_iff _).mpr (server.staysInside_of_no_dots flat)

theorem mem_sendFile {name : List Char} {convert : List UInt8 → List UInt8} {answer : Answer}
    {file : Location} (mem : file ∈ (server.sendFile fs name convert answer).files) :
    file ∈ answer.files ∨ file = server.locate name := by
  unfold sendFile at mem
  split at mem
  · exact (List.mem_append.mp mem).imp_right List.mem_singleton.mp
  · exact Or.inl mem

theorem printErrorToReply_inside {answer : Answer} {code : StatusCode} {errorMessage : List Char}
    (inside : ∀ file ∈ answer.files, server.documentRoot <+: file) :
    ∀ file ∈ (server.printErrorToReply fs answer code errorMessage).files,
      server.documentRoot <+: file := by
  have page : server.documentRoot <+:
      server.locate (server.errorPage (toString code.toNat ++ ".html")) :=
    server.errorPage_inside _ (by cases code <;> decide)
  have sent : ∀ {name : List Char} {convert : List UInt8 → List UInt8} {answer : Answer},
      server.documentRoot <+: server.locate name →
      (∀ file ∈ answer.files, server.documentRoot <+: file) →
      ∀ file ∈ (server.sendFile fs name convert answer).files,
        server.documentRoot <+: file := by
    intro name convert answer here before file mem
    rcases server.mem_sendFile fs mem with earlier | rfl
    · exact before file earlier
    · exact here
  unfold printErrorToReply
  refine sent (server.errorPage_inside "footer.html" (by decide)) ?_
  have header := @sent _ id { answer with
    calls := answer.calls ++ [.setStatusCode code.toNat,
      .addHeader (QByteArrayLiteral "Content-Type") (QByteArrayLiteral "text/html")] }
    (server.errorPage_inside "header.html" (by decide)) inside
  split_ifs
  · exact sent page header
  · exact header

/-- The server sends files from inside the document root only, unless the path
it serves names a file outside. -/
theorem files_inside_iff (request : HttpRequest) :
    (∀ file ∈ (server.onRequestNeedsReply fs request).files, server.documentRoot <+: file) ↔
      (request.command = "GET".toList ∨ request.command = "POST".toList →
        (uriParts (server.path request)).head? ≠ some "cgi".toList →
        (server.readAll fs
          (server.baseUrl ++ '/' :: server.servedPath fs (server.path request))).isSome →
        server.StaysInside (server.servedPath fs (server.path request))) := by
  have empty : ∀ file ∈ ([] : List Location), server.documentRoot <+: file := by simp
  rw [← prefix_locate_iff]
  unfold onRequestNeedsReply
  by_cases command : request.command = "GET".toList ∨ request.command = "POST".toList
  · rw [if_pos command]
    by_cases cgi : (uriParts (server.path request)).head? = some "cgi".toList
    · refine iff_of_true ?_ fun _ other => absurd cgi other
      simp only [if_pos cgi]
      split_ifs
      · exact server.printErrorToReply_inside fs empty
      · exact empty
    · simp only [if_neg cgi]
      cases data : server.readAll fs
          (server.baseUrl ++ '/' :: server.servedPath fs (server.path request)) with
      | none =>
        refine iff_of_true ?_ fun _ _ readable => absurd readable Bool.false_ne_true
        split_ifs <;> exact server.printErrorToReply_inside fs empty
      | some data =>
        have found : (fs (server.locate
            (server.baseUrl ++ '/' :: server.servedPath fs (server.path request)))).isSome := by
          unfold readAll at data
          split at data
          · next entry => rw [entry, Option.isSome_some]
          · exact absurd data (Option.some_ne_none _).symm
        rw [if_pos found]
        simp only [List.forall_mem_singleton]
        exact ⟨fun inside _ _ _ => inside, fun inside => inside command cgi rfl⟩
  · rw [if_neg command]
    exact iff_of_true (server.printErrorToReply_inside fs empty) fun get => absurd get command

/-- The parent of the document root is served. -/
theorem sends_secret :
    let server : StaticFileServing := {
      baseUrl := "/srv/www".toList
      baseUrl_ne_nil := by decide
      workingDirectory := []
      urlPath := id
      toLocal8Bit := fun text => text.map fun c => UInt8.ofNat c.toNat
      mimeTypeForFile := fun _ => "text/plain".toList
      exec := fun _ _ => ([], false) }
    let fs : DirectoryTree := fun location =>
      if location = ["srv".toList, "secret".toList] then some (.file (some [42])) else none
    let request : HttpRequest := { url := "/../secret".toList, command := "GET".toList }
    let answer := server.onRequestNeedsReply fs request
    .appendRawData [42] ∈ answer.calls ∧ answer.files = [["srv".toList, "secret".toList]] ∧
      server.documentRoot = ["srv".toList, "www".toList] ∧
      ∃ file ∈ answer.files, ¬ server.documentRoot <+: file := by
  decide +kernel

end StaticFileServing

end HyperionNg
