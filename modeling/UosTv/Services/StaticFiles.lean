import UosTv.Rust.Canonical
import UosTv.Rust.Lines
import UosTv.Services.PercentDecoding

/-!
The requests that `lunad` answers, and the files that it answers them with.

A path is decoded, joined to the root and made canonical, and what is not below the canonical root
is not found. So a reply does not depend on what other files contain (`reply_confined`), and a file
below the root is what the reply to a request for it consists of (`reply_get`).
-/

namespace Lunad

open Rust

/-! ### The program -/

/-- What is on the disk. A file without content cannot be read. -/
structure Disk where
  tree : FileTree
  content : Path → Option Bytes

/-- `tokio::fs::read` of a canonical path. -/
def Disk.read (disk : Disk) (p : Path) : Option Bytes :=
  (disk.tree.resolve [] true (FileTree.text p)).bind disk.content

/-- `mime_type`. -/
def mimeType (path : String) : String :=
  if endsWith path ".html" || endsWith path ".htm" then "text/html; charset=utf-8"
  else if endsWith path ".css" then "text/css; charset=utf-8"
  else if endsWith path ".js" then "application/javascript; charset=utf-8"
  else if endsWith path ".json" then "application/json; charset=utf-8"
  else if endsWith path ".png" then "image/png"
  else if endsWith path ".jpg" || endsWith path ".jpeg" then "image/jpeg"
  else if endsWith path ".svg" then "image/svg+xml"
  else if endsWith path ".ico" then "image/x-icon"
  else if endsWith path ".woff2" then "font/woff2"
  else if endsWith path ".woff" then "font/woff"
  else "application/octet-stream"

/-- `parse_request`. -/
def parseRequest (line : String) : String × String :=
  match splitWhitespace line with
  | method :: path :: _ => (method, path)
  | _ => ("GET", "/")

def methodNotAllowed : Bytes :=
  asBytes "HTTP/1.0 405 Method Not Allowed\r\nContent-Length: 0\r\n\r\n"

def internalError : Bytes :=
  asBytes "HTTP/1.0 500 Internal Server Error\r\nContent-Length: 0\r\n\r\n"

def notFoundBody : Bytes := asBytes "<html><body><h1>404 Not Found</h1></body></html>"

def notFoundHead : Bytes :=
  asBytes ("HTTP/1.0 404 Not Found\r\nContent-Type: text/html\r\nContent-Length: " ++
    toString notFoundBody.length ++ "\r\nConnection: close\r\n\r\n")

def okHead (mime : String) (length : Nat) : Bytes :=
  asBytes ("HTTP/1.0 200 OK\r\nContent-Type: " ++ mime ++ "\r\nContent-Length: " ++
    toString length ++ "\r\nConnection: close\r\n\r\n")

/-- The head of a reply, and its body behind it. -/
def sent (method : String) (head body : Bytes) : List Bytes :=
  head :: if method = "GET" then [body] else []

/-- The path of a request without its query. -/
def cleanPath (path : String) : String := ((split path '?').head?).getD path

/-- The bytes that the first read gets to. -/
def bufferSize : Nat := 4096

/-- The method and the path of a request, as far as it is in the buffer. -/
def requested (arrived : Bytes) : String × String :=
  let request := fromUtf8Lossy (arrived.take bufferSize)
  parseRequest ((firstLine request).getD "GET / HTTP/1.0")

section Program

variable (disk : Disk) (cwd : Path) (root : String)

/-- `resolve_path`. -/
def resolvePath (requestPath : String) : Option Path := do
  let decoded := percentDecode requestPath
  let canonical ← disk.tree.canonicalize cwd (join root (trimStartMatches decoded '/'))
  let rootCanonical ← disk.tree.canonicalize cwd root
  if rootCanonical <+: canonical then some canonical else none

/-- The path of the file that is asked for. -/
def filePath (clean : String) : Option Path :=
  if clean = "/" ∨ clean = "" then resolvePath disk cwd root "/index.html"
  else resolvePath disk cwd root clean

/-- What is written to the client. -/
def reply (method path : String) : List Bytes :=
  if method ≠ "GET" ∧ method ≠ "HEAD" then [methodNotAllowed]
  else match filePath disk cwd root (cleanPath path) with
    | some p =>
      if disk.tree.isFile p then
        match disk.read p with
        | some content => sent method (okHead (mimeType (FileTree.text p)) content.length) content
        | none => [internalError]
      else sent method notFoundHead notFoundBody
    | none => sent method notFoundHead notFoundBody

/-- `handle_connection`: each of the writes. Without bytes that arrive in time there is none. -/
def handleConnection (arrived : Option Bytes) : List Bytes :=
  match arrived with
  | none => []
  | some bytes => reply disk cwd root (requested bytes).1 (requested bytes).2

end Program

/-! ### What a reply consists of -/

section Confined

variable {disk : Disk} {cwd p : Path} {root path method : String} {content : Path → Option Bytes}

/-- A place at or below the root. -/
def BelowRoot (disk : Disk) (cwd : Path) (root : String) (p : Path) : Prop :=
  ∃ top, disk.tree.canonicalize cwd root = some top ∧ top <+: p

/-- The replies without a file. -/
inductive Refusal : List Bytes → Prop where
  | silent : Refusal []
  | notAllowed : Refusal [methodNotAllowed]
  | unreadable : Refusal [internalError]
  | missing (method : String) : Refusal (sent method notFoundHead notFoundBody)

/-- A reply that consists of the file at a place. -/
def Serves (disk : Disk) (p : Path) (written : List Bytes) : Prop :=
  disk.tree.node p = some .file ∧ ∃ method content, disk.content p = some content ∧
    written = sent method (okHead (mimeType (FileTree.text p)) content.length) content

theorem read_eq (canonical : disk.tree.Canonical p) : disk.read p = disk.content p := by
  rw [Disk.read, FileTree.resolve_text canonical]
  rfl

theorem resolvePath_eq_some (dir : disk.tree.Dir cwd)
    (resolved : resolvePath disk cwd root path = some p) :
    disk.tree.Canonical p ∧ BelowRoot disk cwd root p := by
  simp only [resolvePath, Option.bind_eq_bind, Option.bind_eq_some_iff,
    Option.ite_none_right_eq_some, Option.some.injEq] at resolved
  obtain ⟨canonical, found, top, rootFound, below, rfl⟩ := resolved
  exact ⟨FileTree.canonicalize_canonical dir found, top, rootFound, below⟩

theorem filePath_eq_some (dir : disk.tree.Dir cwd)
    (resolved : filePath disk cwd root path = some p) :
    disk.tree.Canonical p ∧ BelowRoot disk cwd root p := by
  unfold filePath at resolved
  split at resolved
  · exact resolvePath_eq_some dir resolved
  · exact resolvePath_eq_some dir resolved

/-- The file is one at or below the root. -/
theorem reply_serves (dir : disk.tree.Dir cwd) :
    Refusal (reply disk cwd root method path) ∨
      ∃ p, BelowRoot disk cwd root p ∧ Serves disk p (reply disk cwd root method path) := by
  rw [reply]
  split
  · exact .inl .notAllowed
  split
  · rename_i p found
    obtain ⟨canonical, below⟩ := filePath_eq_some dir found
    rw [FileTree.isFile_eq canonical, read_eq canonical]
    split
    · rename_i file
      cases bytes : disk.content p with
      | none => exact .inl .unreadable
      | some content =>
        exact .inr ⟨p, below, of_decide_eq_true file, method, content, bytes, rfl⟩
    · exact .inl (.missing method)
  · exact .inl (.missing method)

/-- What is not below the root does not matter. -/
theorem reply_same (dir : disk.tree.Dir cwd)
    (same : ∀ p, BelowRoot disk cwd root p → content p = disk.content p) :
    reply { disk with content } cwd root method path = reply disk cwd root method path := by
  have files : filePath { disk with content } cwd root = filePath disk cwd root := rfl
  rw [reply, reply, files]
  cases found : filePath disk cwd root (cleanPath path) with
  | none => rfl
  | some p =>
    obtain ⟨canonical, below⟩ := filePath_eq_some dir found
    have canonical' : ({ disk with content } : Disk).tree.Canonical p := canonical
    have reads : ({ disk with content } : Disk).read p = disk.read p := by
      rw [read_eq canonical, read_eq canonical']
      exact same p below
    simp only [reads]

theorem handleConnection_some (bytes : Bytes) : handleConnection disk cwd root (some bytes) =
    reply disk cwd root (requested bytes).1 (requested bytes).2 := by
  rw [handleConnection]

end Confined

/-- Whatever arrives, the reply has no file in it, or it consists of one at or below the root; what
other files contain makes no difference to it. -/
theorem handleConnection_confined {disk : Disk} {cwd : Path} {root : String}
    (dir : disk.tree.Dir cwd) (arrived : Option Bytes) :
    (Refusal (handleConnection disk cwd root arrived) ∨
        ∃ p, BelowRoot disk cwd root p ∧ Serves disk p (handleConnection disk cwd root arrived)) ∧
      ∀ content : Path → Option Bytes,
        (∀ p, BelowRoot disk cwd root p → content p = disk.content p) →
          handleConnection { disk with content } cwd root arrived =
            handleConnection disk cwd root arrived := by
  cases arrived with
  | none => exact ⟨.inl .silent, fun _ _ => rfl⟩
  | some bytes =>
    rw [handleConnection_some]
    refine ⟨reply_serves dir, fun content same => ?_⟩
    rw [handleConnection_some]
    exact reply_same dir same

/-- A page under a root that is a link, and a file beside the root. -/
def samplePages : Disk where
  tree := {
    nodes := HashMap.collect [
      (["www"], .dir), (["www", "app.js"], .file), (["web"], .link "www"), (["key"], .file)]
    root := rfl
    closed := by
      intro here name inner present
      obtain ⟨node, found⟩ := Option.ne_none_iff_exists'.mp present
      have mem := (HashMap.get_collect (by decide)).mp found
      simp only [List.mem_cons, Prod.mk.injEq, List.not_mem_nil, or_false] at mem
      have single {c : String} (path : here ++ [name] = [c]) : here = [] :=
        List.append_inj_left' (path.trans (List.nil_append [c]).symm) rfl
      rcases mem with ⟨path, -⟩ | ⟨path, -⟩ | ⟨path, -⟩ | ⟨path, -⟩
      · exact absurd (single path) inner
      · have www : here = ["www"] := List.append_inj_left' (path.trans List.singleton_append.symm) rfl
        subst www
        rfl
      · exact absurd (single path) inner
      · exact absurd (single path) inner }
  content p := if p = ["www", "app.js"] then some [104, 105] else some [1, 2, 3]

/-- A request for the file beside the root, and one for the page. -/
theorem samplePages_confined : samplePages.tree.Dir [] ∧
    let refused := handleConnection samplePages [] "/web" (some (asBytes "GET /../key HTTP/1.0"))
    (Refusal refused ∨ ∃ p, BelowRoot samplePages [] "/web" p ∧ Serves samplePages p refused) ∧
      ∀ content : Path → Option Bytes,
        (∀ p, BelowRoot samplePages [] "/web" p → content p = samplePages.content p) →
          handleConnection { samplePages with content } [] "/web"
            (some (asBytes "GET /../key HTTP/1.0")) = refused :=
  ⟨FileTree.dir_root, handleConnection_confined FileTree.dir_root _⟩

/-! ### The files below the root -/

/-- The path that a client asks for a file under: each name is encoded. -/
def target (names : List String) : String := FileTree.text (names.map enc)

/-- A name of ASCII letters. -/
def Ascii (name : String) : Prop := ∀ b ∈ asBytes name, b.toNat < 128

section Targets

variable {names : List String} {name : String} {rest : Bytes}

theorem decodeLoop_encoded_append (bs : Bytes) :
    decodeLoop (bs.flatMap encByte ++ rest) = bs ++ decodeLoop rest := by
  induction bs with
  | nil => rfl
  | cons b bs ih =>
    rw [List.flatMap_cons, List.append_assoc, (token_encByte b).decodeLoop, ih, List.cons_append]

theorem decodeLoop_slash : decodeLoop (47 :: rest) = 47 :: decodeLoop rest :=
  decodeLoop_cons (by decide)

theorem asBytes_slash : asBytes (String.singleton '/') = [47] := by decide

/-- Each name is decoded to itself. -/
theorem decodeLoop_intercalate :
    decodeLoop (asBytes (String.intercalate (String.singleton '/') (names.map enc))) =
      asBytes (String.intercalate (String.singleton '/') names) := by
  induction names with
  | nil => decide
  | cons name names ih =>
    cases names with
    | nil =>
      rw [List.map_singleton, String.intercalate_singleton, String.intercalate_singleton,
        asBytes_enc, decodeLoop_encoded]
    | cons next names =>
      rw [List.map_cons, List.map_cons, String.intercalate_cons_cons, String.intercalate_cons_cons,
        ← List.map_cons, asBytes_append, asBytes_append, asBytes_append, asBytes_append, asBytes_enc,
        asBytes_slash, List.append_assoc, decodeLoop_encoded_append, List.singleton_append,
        decodeLoop_slash, ih, List.append_assoc]
      rfl

theorem ascii_intercalate (ascii : ∀ name ∈ names, Ascii name) :
    Ascii (String.intercalate (String.singleton '/') names) := by
  intro b mem
  obtain ⟨c, char, byte⟩ := List.mem_flatMap.mp mem
  have chars : ∀ name ∈ names, ∀ c ∈ name.toList, ∀ b ∈ String.utf8EncodeChar c, b.toNat < 128 :=
    fun name mem c char b byte => ascii name mem b (List.mem_flatMap.mpr ⟨c, char, byte⟩)
  exact forall_mem_intercalate (by decide +kernel) chars c char b byte

/-- The path is decoded to the names. -/
theorem percentDecode_target (ascii : ∀ name ∈ names, Ascii name) :
    percentDecode (target names) = FileTree.text names := by
  have bytes : asBytes (percentDecode (target names)) = asBytes (FileTree.text names) := by
    have slash : asBytes "/" = [47] := asBytes_slash
    rw [asBytes_percentDecode, coded, target, FileTree.text, FileTree.text, asBytes_append,
      asBytes_append, slash, List.singleton_append, decodeLoop_slash, decodeLoop_intercalate,
      List.flatMap_cons, flatMap_latin_of_low (ascii_intercalate ascii), latin_low (by decide)]
  rw [← fromUtf8Lossy_asBytes (percentDecode (target names)), bytes, fromUtf8Lossy_asBytes]

/-- What is encoded has neither a space nor a question mark in it. -/
theorem enc_plain : ∀ c ∈ (enc name).toList, isWhitespace c = false ∧ c ≠ '?' := by
  have table : (List.range 256).all fun n => (encByte (.ofNat n)).all fun e =>
      isWhitespace (byteChar e) = false ∧ byteChar e ≠ '?' := by decide +kernel
  simp only [List.all_eq_true, List.mem_range, decide_eq_true_eq] at table
  intro c mem
  rw [enc, String.toList_ofList] at mem
  obtain ⟨e, encoded, rfl⟩ := List.mem_map.mp mem
  obtain ⟨b, -, encoded⟩ := List.mem_flatMap.mp encoded
  have entry := table b.toNat b.toNat_lt
  rw [UInt8.ofNat_toNat] at entry
  exact entry e encoded

theorem target_plain : ∀ c ∈ (target names).toList, isWhitespace c = false ∧ c ≠ '?' := by
  rw [target, FileTree.text, String.toList_append]
  refine List.forall_mem_append.mpr ⟨?_, forall_mem_intercalate (by decide) ?_⟩
  · exact List.forall_mem_singleton.mpr (by decide)
  · intro part mem
    obtain ⟨name, -, rfl⟩ := List.mem_map.mp mem
    exact enc_plain

end Targets

section Get

variable {disk : Disk} {cwd top : Path} {root method : String} {names : List String}
  {content : Bytes}

/-- The beginning of a request. -/
def requestLine (method : String) (names : List String) : String :=
  method ++ " " ++ target names ++ " "

theorem asBytes_requestLine : asBytes (requestLine method names) =
    asBytes method ++ asBytes (" " ++ target names ++ " ") := by
  rw [← asBytes_append]
  simp only [requestLine, String.append_assoc]

theorem cleanPath_target : cleanPath (target names) = target names := by
  have plain : '?' ∉ (target names).toList := fun mem => (target_plain _ mem).2 rfl
  rw [cleanPath, split, List.splitOn_eq_singleton plain]
  rw [List.map_singleton, String.ofList_toList]
  rfl

theorem intercalate_ne_empty (normal : ∀ name ∈ names, FileTree.Normal name) (below : names ≠ []) :
    String.intercalate (String.singleton '/') names ≠ "" := by
  intro empty
  have parts := split_intercalate below fun name mem => (normal name mem).one
  rw [empty] at parts
  have blank : "" ∈ names := by
    rw [← parts]
    decide
  exact (normal "" blank).nonempty rfl

/-- Only the slash that a path starts with is taken away. -/
theorem trimStartMatches_text (normal : ∀ name ∈ names, FileTree.Normal name) (below : names ≠ []) :
    trimStartMatches (FileTree.text names) '/' =
      String.intercalate (String.singleton '/') names := by
  have parts := split_intercalate below fun name mem => (normal name mem).one
  have relative : startsWith (String.intercalate (String.singleton '/') names) "/" = false := by
    rw [← parts] at normal
    exact FileTree.startsWith_of_split normal
  have chars : (FileTree.text names).toList =
      '/' :: (String.intercalate (String.singleton '/') names).toList := by
    rw [FileTree.text, String.toList_append]
    rfl
  rw [trimStartMatches, chars, List.dropWhile_cons_of_pos (by decide)]
  cases chars : (String.intercalate (String.singleton '/') names).toList with
  | nil =>
    refine String.toList_inj.mp ?_
    rw [chars]
    rfl
  | cons c cs =>
    have other : c ≠ '/' := by
      intro slash
      rw [startsWith, decide_eq_false_iff_not, chars, slash] at relative
      exact relative ⟨cs, rfl⟩
    have kept : (c :: cs).dropWhile (· = '/') = c :: cs := by
      rw [List.dropWhile_cons, if_neg (by simpa using other)]
    rw [kept, ← chars, String.ofList_toList]

/-- A file below the root is found under its path. -/
theorem filePath_target (served : disk.tree.canonicalize cwd root = some top)
    (normal : ∀ name ∈ names, FileTree.Normal name) (ascii : ∀ name ∈ names, Ascii name)
    (below : names ≠ []) (file : disk.tree.node (top ++ names) = some .file) :
    filePath disk cwd root (target names) = some (top ++ names) := by
  have decoded := percentDecode_target ascii
  have asked : ¬ (target names = "/" ∨ target names = "") := by
    have nonempty := intercalate_ne_empty normal below
    rintro (slash | empty)
    · have same : "/" ++ "" = "/" ++ String.intercalate (String.singleton '/') names := by
        rw [slash] at decoded
        exact decoded
      exact nonempty (String.append_right_inj _ |>.mp same).symm
    · rw [empty] at decoded
      have chars := congrArg String.toList decoded
      rw [FileTree.text, String.toList_append] at chars
      cases chars
  rw [filePath, if_neg asked, resolvePath, decoded, trimStartMatches_text normal below,
    FileTree.canonicalize_join normal below (.inr file) served]
  simp only [Option.bind_eq_bind, Option.bind_some, served]
  exact if_pos (List.prefix_append _ _)

/-- The words of a request line are read from what arrives. -/
theorem requested_line (plain : method.toList.any isWhitespace = false)
    (nonempty : method ≠ "") (rest : Bytes)
    (fits : (asBytes (requestLine method names)).length ≤ bufferSize) :
    requested (asBytes (requestLine method names) ++ rest) = (method, target names) := by
  have plain : ∀ c ∈ method.toList, isWhitespace c = false := by simpa using plain
  have line : '\n' ∉ (method ++ " " ++ target names).toList := by
    rw [String.toList_append, String.toList_append]
    refine List.not_mem_append (List.not_mem_append ?_ (by decide)) ?_
    · exact fun mem => absurd (plain _ mem) (by decide)
    · exact fun mem => absurd (target_plain _ mem).1 (by decide)
  have someTarget : target names ≠ "" := by
    rw [target, FileTree.text]
    simp
  rw [requested, List.take_append, List.take_of_length_le fits, fromUtf8Lossy_append, requestLine]
  obtain ⟨more, first⟩ := firstLine_append (fromUtf8Lossy (rest.take _)) line
  have words : method ++ " " ++ target names ++ " " ++ more =
      method ++ " " ++ (target names ++ " " ++ more) := by
    simp only [String.append_assoc]
  rw [first, Option.getD_some, parseRequest, words, splitWhitespace_append nonempty plain,
    splitWhitespace_append someTarget fun c mem => (target_plain c mem).1]

theorem reply_target (dir : disk.tree.Dir cwd) (allowed : method = "GET" ∨ method = "HEAD")
    (found : filePath disk cwd root (target names) = some (top ++ names))
    (file : disk.tree.node (top ++ names) = some .file)
    (readable : disk.content (top ++ names) = some content) :
    reply disk cwd root method (target names) =
      sent method (okHead (mimeType (FileTree.text (top ++ names))) content.length) content := by
  have canonical := (filePath_eq_some dir found).1
  have served : ¬ (method ≠ "GET" ∧ method ≠ "HEAD") := by
    rintro ⟨get, head⟩
    exact allowed.elim get head
  have isFile : disk.tree.isFile (top ++ names) = true := by
    rw [FileTree.isFile_eq canonical, file]
    exact decide_eq_true rfl
  rw [reply, if_neg served, cleanPath_target, found]
  simp only [isFile, if_true, read_eq canonical, readable]

end Get

/-- A file below the root is the reply to a request for its path; the reply to a `HEAD` request is
the head of it. -/
theorem handleConnection_get {disk : Disk} {cwd top : Path} {root : String} {names : List String}
    {content : Bytes} (dir : disk.tree.Dir cwd)
    (served : disk.tree.canonicalize cwd root = some top)
    (normal : ∀ name ∈ names, FileTree.Normal name) (ascii : ∀ name ∈ names, Ascii name)
    (below : names ≠ []) (file : disk.tree.node (top ++ names) = some .file)
    (readable : disk.content (top ++ names) = some content) (rest : Bytes)
    (fits : (asBytes (requestLine "HEAD" names)).length ≤ bufferSize) :
    let head := okHead (mimeType (FileTree.text (top ++ names))) content.length
    handleConnection disk cwd root (some (asBytes (requestLine "GET" names) ++ rest)) =
        [head, content] ∧
      handleConnection disk cwd root (some (asBytes (requestLine "HEAD" names) ++ rest)) =
        [head] := by
  intro head
  have found := filePath_target served normal ascii below file
  have shorter : (asBytes (requestLine "GET" names)).length ≤ bufferSize := by
    rw [asBytes_requestLine, List.length_append] at fits ⊢
    have get : (asBytes "GET").length = 3 := by decide
    have head : (asBytes "HEAD").length = 4 := by decide
    omega
  constructor
  · rw [handleConnection_some, requested_line (by decide) (by decide) rest shorter,
      reply_target dir (.inl rfl) found file readable]
    rfl
  · rw [handleConnection_some, requested_line (by decide) (by decide) rest fits,
      reply_target dir (.inr rfl) found file readable]
    rfl

theorem samplePages_get :
    let head := okHead (mimeType (FileTree.text ["www", "app.js"])) 2
    handleConnection samplePages [] "/web" (some (asBytes (requestLine "GET" ["app.js"]) ++ [])) =
        [head, [104, 105]] ∧
      handleConnection samplePages [] "/web" (some (asBytes (requestLine "HEAD" ["app.js"]) ++ [])) =
        [head] := by
  have served : samplePages.tree.canonicalize [] "/web" = some ["www"] := by decide
  have normal : ∀ name ∈ ["app.js"], FileTree.Normal name := by
    rintro name (_ | ⟨_, ⟨⟩⟩)
    exact ⟨by decide, by decide, by decide, by decide⟩
  have ascii : ∀ name ∈ ["app.js"], Ascii name := by
    unfold Ascii
    decide +kernel
  exact handleConnection_get FileTree.dir_root served normal ascii (by decide) rfl rfl [] (by decide)

end Lunad
