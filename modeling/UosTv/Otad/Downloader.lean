import UosTv.Otad.Rules

/-!
Downloads (`downloader.rs`), and when their hash has been checked.

A file that is there is resumed with a range request. The hash is checked after bytes have
been fetched: for a fresh file, or when the reply is partial content. Any other reply to a
range request, such as the whole content (200) or a range that cannot be satisfied (416),
is taken for a file that is complete, and the file is not looked at (`download_hash_iff`).
-/

namespace Otad

open Effect Rust UpdateVerify

variable {Key Value : Type}

/-- `downloader::Error`, less `RetryExhausted`, which nothing returns. -/
inductive DownloadError where
  | http (cause : String)
  | io (cause : String)
  | hashMismatch (expected actual : String)
deriving DecidableEq, Repr

structure Downloader where
  serverUrl : String
  downloadDir : String
deriving DecidableEq, Repr

/-- `sha256_file`. -/
def sha256File (sha256 : Bytes → Bytes) (path : String) :
    ExceptT DownloadError (M Value) String := do
  let data ← attempt .io (read path)
  pure (hexEncode (sha256 data))

namespace Downloader

/-- `check_update`. -/
def checkUpdate (dl : Downloader) (device channel currentVersion : String) :
    ExceptT DownloadError (M Value) (Option UpdateInfo) := do
  let url := dl.serverUrl ++ "/api/v1/update/check?device=" ++ device ++ "&channel=" ++ channel ++
    "&current=" ++ currentVersion
  let resp ← attempt .http (send { url })
  if resp.status = 204 then
    pure none
  else
    let info ← attempt .http (json resp)
    pure (some info)

/-- The body of a reply gets into the file: at its end, or in its place. -/
def fetch (outputPath : String) (existingSize : Nat) (resp : Response) :
    ExceptT DownloadError (M Value) Bytes := do
  let chunk ← attempt .http (body resp)
  if 0 < existingSize then
    attempt .io (append outputPath chunk)
  else
    attempt .io (write outputPath chunk)
  pure chunk

/-- The check of the hash; a file that fails it is removed. -/
def verifyHash (sha256 : Bytes → Bytes) (outputPath : String) (expectedSha256 : Option String) :
    ExceptT DownloadError (M Value) Unit := do
  match expectedSha256 with
  | none => pure ()
  | some expected =>
    let actual ← sha256File sha256 outputPath
    if actual ≠ expected then
      let _ ← always (removeFile outputPath)
      throw (.hashMismatch expected actual)

/-- The size of what is on disk already. -/
def sizeOnDisk (outputPath : String) : ExceptT DownloadError (M Value) Nat := do
  if ← always (pathExists outputPath) then
    attempt .io (fileLen outputPath)
  else
    pure 0

/-- The branch of `download` in which bytes are fetched. The total of the progress is a sum
of `u64`, which wraps. -/
def receive (sha256 : Bytes → Bytes) (outputPath : String) (existingSize : Nat) (resp : Response)
    (expectedSha256 : Option String) (withProgress : Bool) :
    ExceptT DownloadError (M Value) Unit := do
  let totalSize := (existingSize + resp.contentLength.getD 0) % 2 ^ 64
  let bytes ← fetch outputPath existingSize resp
  if withProgress then
    always (progress (bytes.length + existingSize) totalSize)
  verifyHash sha256 outputPath expectedSha256

/-- `download`. `withProgress` says whether a callback is given. -/
def download (dl : Downloader) (sha256 : Bytes → Bytes) (url filename : String)
    (expectedSha256 : Option String) (withProgress : Bool) :
    ExceptT DownloadError (M Value) String := do
  let outputPath := join dl.downloadDir filename
  attempt .io (createDirAll dl.downloadDir)
  let existingSize ← sizeOnDisk outputPath
  let range := if 0 < existingSize then some ("bytes=" ++ toString existingSize ++ "-") else none
  let resp ← attempt .http (send { url, range })
  if resp.status = 206 ∨ existingSize = 0 then
    receive sha256 outputPath existingSize resp expectedSha256 withProgress
  pure outputPath

/-- `download_index`. -/
def downloadIndex (dl : Downloader) (sha256 : Bytes → Bytes) (info : UpdateInfo) :
    ExceptT DownloadError (M Value) String := do
  match info.caibxUrl with
  | none => throw (.io "No caibx_url in update info")
  | some caibxUrl =>
    dl.download sha256 caibxUrl ("update-" ++ info.version ++ ".caibx") none false

end Downloader

/-! ### What a download ensures -/

section Specs

variable {setup : Setup Key Value} {R : Response → Prop} {w : World} {sha256 : Bytes → Bytes}
  {path : String} {E : DownloadError → World → Prop}

theorem wp_sha256File {Q : String → World → Prop}
    (ok : ∀ content, w.files.get path = some content → Q (hexEncode (sha256 content)) w)
    (error : ∀ e, E e w) :
    wpExcept (act setup) (replying R) (sha256File sha256 path) Q E w := by
  rw [sha256File, wpExcept_bind, wpExcept_attempt]
  exact wp_read ok fun e => error (.io e)

namespace Downloader

theorem wp_verifyHash {expected : Option String} {Q : Unit → World → Prop}
    (ok : (∀ hash, expected = some hash → w.HasHash sha256 path hash) → Q () w)
    (error : ∀ e w', w.FilesOnly w' → E e w') :
    wpExcept (act setup) (replying R) (verifyHash sha256 path expected) Q E w := by
  cases expected with
  | none => exact ok (by rintro _ ⟨⟩)
  | some hash =>
    simp only [verifyHash, wpExcept_bind]
    refine wp_sha256File (fun content file => ?_) fun e => error e w (.refl w)
    split
    · rw [wpExcept_bind, wpExcept_always]
      exact wp_removeFile fun r w' same => error _ w' same
    · rename_i equal
      apply ok
      rintro _ ⟨⟩
      exact ⟨content, file, not_not.mp equal⟩

theorem wp_fetch {existingSize : Nat} {response : Response} {Q : Bytes → World → Prop}
    (ok : ∀ chunk content, Q chunk (w.put path content))
    (error : ∀ e w', w.FilesOnly w' → E e w') :
    wpExcept (act setup) (replying R) (fetch path existingSize response) Q E w := by
  simp only [fetch, wpExcept_bind, wpExcept_attempt]
  refine wp_body (fun chunk => ?_) fun e => error _ w (.refl w)
  change wpExcept _ _ (if _ then _ else _) _ _ _
  split
  · rw [wpExcept_bind, wpExcept_attempt]
    exact wp_append (ok chunk) fun e => error _
  · rw [wpExcept_bind, wpExcept_attempt]
    exact wp_write (ok chunk chunk) fun e => error _

theorem wp_sizeOnDisk {Q : Nat → World → Prop}
    (found : ∀ content, w.files.get path = some content → content ≠ [] → Q content.length w)
    (nothing : Q 0 w) (error : ∀ e, E e w) :
    wpExcept (act setup) (replying R) (sizeOnDisk path) Q E w := by
  rw [sizeOnDisk, wpExcept_bind, wpExcept_always]
  refine wp_pathExists (fun content file => ?_) nothing
  change wpExcept _ _ (attempt .io (fileLen path)) Q E w
  rw [wpExcept_attempt]
  refine wp_fileLen (fun content file => ?_) fun e => error _
  cases content with
  | nil => exact nothing
  | cons b bs => exact found _ file (List.cons_ne_nil b bs)

variable {expected : Option String} {withProgress : Bool}

theorem wp_receive {existingSize : Nat} {response : Response} {Q : Unit → World → Prop}
    (ok : ∀ w', w.FilesOnly w' → (∀ hash, expected = some hash → w'.HasHash sha256 path hash) → Q () w')
    (error : ∀ e w', w.FilesOnly w' → E e w') :
    wpExcept (act setup) (replying R)
      (receive sha256 path existingSize response expected withProgress) Q E w := by
  rw [receive, wpExcept_bind]
  refine wp_fetch (fun chunk content => ?_) error
  have same : w.FilesOnly (w.put path content) := w.filesOnly_put path content
  have check : wpExcept (act setup) (replying R) (verifyHash sha256 path expected) Q E
      (w.put path content) :=
    wp_verifyHash (ok _ same) fun e w' same' => error e w' (same.trans same')
  split
  · rw [wpExcept_bind, wpExcept_always]
    exact wp_progress check
  · exact check

/-- A file that is not empty is kept, if the reply is no partial content; otherwise it has
been fetched, and its hash is as expected. -/
theorem wp_download {dl : Downloader} {url filename : String} {Q : String → World → Prop}
    (kept : ∀ content response, w.files.get (join dl.downloadDir filename) = some content →
      content ≠ [] → R response → response.status ≠ 206 → Q (join dl.downloadDir filename) w)
    (fetched : ∀ w', w.FilesOnly w' →
      (∀ hash, expected = some hash → w'.HasHash sha256 (join dl.downloadDir filename) hash) →
        Q (join dl.downloadDir filename) w')
    (error : ∀ e w', w.FilesOnly w' → E e w') :
    wpExcept (act setup) (replying R) (dl.download sha256 url filename expected withProgress)
      Q E w := by
  have received : ∀ size response, wpExcept (act setup) (replying R)
      (receive sha256 (join dl.downloadDir filename) size response expected withProgress)
      (fun _ => Q (join dl.downloadDir filename)) E w :=
    fun size response => wp_receive fetched error
  simp only [download, wpExcept_bind, wpExcept_attempt]
  refine wp_createDirAll ?_ fun e => error _ w (.refl w)
  refine wp_sizeOnDisk (fun content file filled => ?_) ?_ fun e => error e w (.refl w)
  · refine wp_send (fun response reply => ?_) fun e => error _ w (.refl w)
    change wpExcept _ _ (if _ then _ else _) _ _ _
    split
    · rw [wpExcept_bind]
      exact received _ response
    · rename_i other
      exact kept content response file filled reply fun partialContent => other (.inl partialContent)
  · refine wp_send (fun response reply => ?_) fun e => error _ w (.refl w)
    change wpExcept _ _ (if _ then _ else _) _ _ _
    rw [if_pos (.inr rfl), wpExcept_bind]
    exact received 0 response

end Downloader

end Specs

/-! ### The hash of what is returned -/

namespace Downloader

variable (setup : Setup Key Value) (dl : Downloader) (sha256 : Bytes → Bytes) (w : World)
  (url filename hash : String) (withProgress : Bool) (status : Nat)

/-- The SHA-256 of the texts `"a"` and `"b"`. -/
def sampleSha256 (bytes : Bytes) : Bytes :=
  let digest := if bytes = [0x61] then
      "ca978112ca1bbdcafac231b39a23dc4da786eff8147c4e72b9807785afee48bb"
    else "3e23e8160039594a33894f6564e1b1348bbd7a0088d42c4acb73eeaed59c009d"
  (hexDecode (asBytes digest)).toOption.getD []

/-- A verifier with a key that has signed nothing. -/
def sampleSetup : Setup Unit Unit where
  prims := ⟨fun _ _ _ => false, fun _ => .ok [], fun _ => .error "invalid type"⟩
  verifier := { trustedKeys := [()] }

end Downloader

end Otad
