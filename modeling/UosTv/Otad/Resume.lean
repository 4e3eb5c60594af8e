import UosTv.Lib.Choices
import UosTv.Otad.Downloader

/-!
Downloads that are resumed.

The server has some content, of which a beginning is on disk. It answers a request for the rest
with the rest (206), or with the whole content (200), or says that there is no rest (416).
The file is the content in the end iff it was empty or complete, or the rest has been sent and
got to the file (`resumes_iff`). `AsyncFile` is not flushed, so this last condition is one on
what the environment chooses, unless a hash is checked.
-/

namespace Otad

open Effect Rust UpdateVerify

variable {Key Value : Type}

/-- The contract that relies on a server of `content`. Without a range it replies with all of
it; with the range that begins behind the `onDisk` first bytes it replies with the status
`status`, which is 206 if it sends the bytes in the range only. -/
def serving (content : Bytes) (onDisk status : Nat) : Contract (Op Value) Ans World where
  rely
    | _, .send request, answer => ∀ response, (answer : Except String Response) = .ok response →
        (request.range = none → response.status = 200) ∧
        (request.range = some ("bytes=" ++ toString onDisk ++ "-") → response.status = status)
    | _, .body response, answer => ∀ bytes, (answer : Except String Bytes) = .ok bytes →
        (response.status = 200 → bytes = content) ∧
        (response.status = 206 → bytes = content.drop onDisk)
    | _, _, _ => True
  guarantee _ _ := True

/-- With `flushed`, no bytes that have been handed to the file are missing in it. -/
def Flushes (flushed : Bool) (choice : Choice) : Prop := flushed = true → choice.written = none

instance (flushed : Bool) : DecidablePred (Flushes flushed) := fun choice =>
  inferInstanceAs (Decidable (flushed = true → choice.written = none))

/-- What has been sent of the rest gets to the file: because it does, or because a hash is checked
that no shorter file has. -/
def Arrives (flushed : Bool) (sha256 : Bytes → Bytes) (expected : Option String)
    (onDisk rest : Bytes) : Prop :=
  flushed = true ∨ ∃ hash, expected = some hash ∧
    ∀ n < rest.length, hexEncode (sha256 (onDisk ++ rest.take n)) ≠ hash

variable {setup : Setup Key Value} {flushed : Bool} {content : Bytes} {onDisk status : Nat}
  {sha256 : Bytes → Bytes} {w : World} {path : String}

@[simp] theorem World.get_put (w : World) (path : String) (bytes : Bytes) :
    (w.put path bytes).files.get path = some bytes :=
  (HashMap.get_insert ..).trans (if_pos rfl)

/-- What holds of an operation without a server holds of it with one. -/
theorem wp_serving {α : Type} {p : M Value α} {Q : α → World → Prop}
    (pre : wp (act setup) (replying fun _ => True) p Q w) :
    wp (only (act setup) (Flushes flushed)) (serving content onDisk status) p Q w := by
  apply wp_only (wp_weaken _ (fun _ _ _ => trivial) pre)
  intro s o answer _
  cases o
  case send request => exact fun _ _ => trivial
  all_goals exact trivial

theorem wpExcept_serving {α : Type} {p : ExceptT DownloadError (M Value) α}
    {Q : α → World → Prop} {E : DownloadError → World → Prop}
    (pre : wpExcept (act setup) (replying fun _ => True) p Q E w) :
    wpExcept (only (act setup) (Flushes flushed)) (serving content onDisk status) p Q E w :=
  wp_serving pre

theorem wp_send_serving {request : Request} {Q : Except String Response → World → Prop}
    (ok : ∀ response, (request.range = none → response.status = 200) →
      (request.range = some ("bytes=" ++ toString onDisk ++ "-") → response.status = status) →
      Q (.ok response) w) (error : ∀ e, Q (.error e) w) :
    wp (only (act setup) (Flushes flushed)) (serving content onDisk status) (send request) Q w := by
  apply And.intro trivial
  intro choice answer w' done
  apply answer_cases (P := fun r w' => (serving content onDisk status).rely w (.send request) r →
    Q r w') (only_eq_some.mp done).2
  · intro relied
    obtain ⟨whole, range⟩ := relied _ rfl
    exact ok _ whole range
  · intro e _
    exact error e

theorem wp_body_serving {response : Response} {Q : Except String Bytes → World → Prop}
    (ok : ∀ bytes, (response.status = 200 → bytes = content) →
      (response.status = 206 → bytes = content.drop onDisk) → Q (.ok bytes) w)
    (error : ∀ e, Q (.error e) w) :
    wp (only (act setup) (Flushes flushed)) (serving content onDisk status) (body response) Q w := by
  apply And.intro trivial
  intro choice answer w' done
  apply answer_cases (P := fun r w' => (serving content onDisk status).rely w (.body response) r →
    Q r w') (only_eq_some.mp done).2
  · intro relied
    obtain ⟨whole, rest⟩ := relied _ rfl
    exact ok _ whole rest
  · intro e _
    exact error e

/-- Some of the bytes get to the file, all of them with `flushed`. -/
theorem wp_append_serving {old bytes : Bytes} {Q : Except String Unit → World → Prop}
    (file : w.files.get path = some old)
    (ok : ∀ n, (flushed = true → bytes.length ≤ n) →
      Q (.ok ()) (w.put path (old ++ bytes.take n)))
    (error : ∀ e w', Q (.error e) w') :
    wp (only (act setup) (Flushes flushed)) (serving content onDisk status) (append path bytes)
      Q w := by
  apply And.intro trivial
  intro choice answer w' done _
  obtain ⟨flushes, done⟩ := only_eq_some.mp done
  change actAppend w path bytes choice = _ at done
  simp only [actAppend, file] at done
  apply answer_cases done
  · apply ok
    intro all
    rw [flushes all]
    exact Nat.le_refl _
  · exact fun e => error e _

namespace Downloader

variable {rest old : Bytes} {expected : Option String} {withProgress : Bool}

theorem wp_receive_serving {size : Nat} {response : Response} {Q : Unit → World → Prop}
    {E : DownloadError → World → Prop}
    (fetched : wpExcept (only (act setup) (Flushes flushed)) (serving content onDisk status)
      (fetch path size response)
      (fun _ => wpExcept (only (act setup) (Flushes flushed)) (serving content onDisk status)
        (verifyHash sha256 path expected) Q E) E w) :
    wpExcept (only (act setup) (Flushes flushed)) (serving content onDisk status)
      (receive sha256 path size response expected withProgress) Q E w := by
  rw [receive, wpExcept_bind]
  apply wp_mono fetched
  rintro (e | bytes) w' next
  · exact next
  · change wpExcept _ _ (if _ then _ else _) _ _ _
    split
    · rw [wpExcept_bind, wpExcept_always]
      exact wp_serving (wp_progress next)
    · exact next

/-- The whole content replaces what is on disk. -/
theorem wp_receive_whole {response : Response} (whole : response.status = 200) :
    wpExcept (only (act setup) (Flushes flushed)) (serving content onDisk status)
      (receive sha256 path 0 response expected withProgress)
      (fun _ w' => w'.files.get path = some content) (fun _ _ => True) w := by
  apply wp_receive_serving
  rw [fetch, wpExcept_bind, wpExcept_attempt]
  apply wp_body_serving _ fun _ => trivial
  intro bytes sent _
  obtain rfl : bytes = content := sent whole
  change wpExcept _ _ (if _ then _ else _) _ _ _
  rw [if_neg (Nat.lt_irrefl 0), wpExcept_bind, wpExcept_attempt]
  apply wp_serving
  apply wp_write _ fun _ _ _ => trivial
  change wpExcept _ _ (verifyHash sha256 path expected) _ _ _
  apply wpExcept_serving
  exact wp_verifyHash (fun _ => World.get_put ..) fun _ _ _ => trivial

/-- The rest of the content gets behind what is on disk. -/
theorem wp_receive_rest {response : Response} (partialContent : response.status = 206)
    (file : w.files.get path = some old) (filled : old ≠ [])
    (arrives : rest = [] ∨ Arrives flushed sha256 expected old rest) :
    wpExcept (only (act setup) (Flushes flushed)) (serving (old ++ rest) old.length status)
      (receive sha256 path old.length response expected withProgress)
      (fun _ w' => w'.files.get path = some (old ++ rest)) (fun _ _ => True) w := by
  apply wp_receive_serving
  rw [fetch, wpExcept_bind, wpExcept_attempt]
  apply wp_body_serving _ fun _ => trivial
  intro bytes _ sent
  obtain rfl : bytes = rest := by rw [sent partialContent, List.drop_left]
  change wpExcept _ _ (if _ then _ else _) _ _ _
  rw [if_pos (List.length_pos_iff.mpr filled), wpExcept_bind, wpExcept_attempt]
  apply wp_append_serving file _ fun _ _ => trivial
  intro n all
  change wpExcept _ _ (verifyHash sha256 path expected) _ _ _
  apply wpExcept_serving
  apply wp_verifyHash _ fun _ _ _ => trivial
  intro checked
  rw [World.get_put]
  suffices enough : bytes.length ≤ n by rw [List.take_of_length_le enough]
  rcases arrives with rfl | flushes | ⟨hash, expects, none⟩
  · exact Nat.zero_le n
  · exact all flushes
  · by_contra short
    obtain ⟨found, file', same⟩ := checked hash expects
    rw [World.get_put] at file'
    cases file'
    exact none n (by omega) same

theorem wp_download_serving {dl : Downloader} {url filename : String}
    (isPath : path = join dl.downloadDir filename)
    (resumes : w.content path = [] ∨ rest = [] ∨
      status = 206 ∧ Arrives flushed sha256 expected (w.content path) rest) :
    wpExcept (only (act setup) (Flushes flushed))
      (serving (w.content path ++ rest) (w.content path).length status)
      (dl.download sha256 url filename expected withProgress)
      (fun path' w' => path' = path ∧ w'.files.get path = some (w.content path ++ rest))
      (fun _ _ => True) w := by
  simp only [download, ← isPath, wpExcept_bind, wpExcept_attempt]
  apply wp_serving
  apply wp_createDirAll _ fun _ => trivial
  apply wpExcept_serving
  apply wp_sizeOnDisk _ _ fun _ => trivial
  · intro old file filled
    obtain same : w.content path = old := by rw [World.content, file, Option.getD_some]
    rw [same] at resumes ⊢
    rw [if_pos (List.length_pos_iff.mpr filled)]
    apply wp_send_serving _ fun _ => trivial
    intro response _ replies
    obtain rfl : response.status = status := replies rfl
    change wpExcept _ _ (if _ then _ else _) _ _ _
    split
    · rename_i fetches
      have partialContent : response.status = 206 := by
        apply fetches.resolve_right
        exact fun none => filled (List.length_eq_zero_iff.mp none)
      rw [wpExcept_bind]
      apply wp_mono (wp_receive_rest partialContent file filled _)
      · rintro (e | _) w' post
        · exact trivial
        · exact ⟨rfl, post⟩
      · exact (resumes.resolve_left filled).imp_right And.right
    · rename_i other
      obtain rfl : rest = [] := by
        apply (resumes.resolve_left filled).resolve_right
        exact fun partialContent => other (.inl partialContent.1)
      rw [List.append_nil]
      exact ⟨rfl, file⟩
  · apply wp_send_serving _ fun _ => trivial
    intro response whole _
    change wpExcept _ _ (if _ then _ else _) _ _ _
    rw [if_pos (.inr rfl), wpExcept_bind]
    apply wp_mono (wp_receive_whole (whole rfl))
    rintro (e | _) w' post
    · exact trivial
    · exact ⟨rfl, post⟩

/-! ### Runs in which the content is not what is returned -/

/-- The server may reply to the range. -/
theorem may_download_of_reply {dl : Downloader} {url filename : String}
    {Q : String → World → Prop} (file : w.files.get (join dl.downloadDir filename) = some old)
    (filled : old ≠ [])
    (next : mayReturn (only (act setup) (Flushes flushed)) (serving content old.length status) (do
      if status = 206 ∨ old.length = 0 then
        receive sha256 (join dl.downloadDir filename) old.length { status } expected withProgress
      pure (join dl.downloadDir filename)) Q w) :
    mayReturn (only (act setup) (Flushes flushed)) (serving content old.length status)
      (dl.download sha256 url filename expected withProgress) Q w := by
  simp only [download, sizeOnDisk, mayReturn_bind, mayReturn_attempt, mayReturn_always]
  refine ⟨default, .ok (), w, only_eq_some.mpr ⟨fun _ => rfl, rfl⟩, trivial, ?_⟩
  have exists' : act setup w (.pathExists (join dl.downloadDir filename)) default = some (true, w) := by
    simp only [act, file]
    rfl
  refine ⟨default, true, w, only_eq_some.mpr ⟨fun _ => rfl, exists'⟩, trivial, ?_⟩
  change mayReturn _ _ (attempt DownloadError.io (fileLen _)) _ _
  rw [mayReturn_attempt]
  have length : act setup w (.fileLen (join dl.downloadDir filename)) default =
      some (.ok old.length, w) := by
    simp only [act, onFile, file]
    rfl
  refine ⟨default, .ok old.length, w, only_eq_some.mpr ⟨fun _ => rfl, length⟩, trivial, ?_⟩
  refine ⟨{ response := { status } }, .ok { status }, w, only_eq_some.mpr ⟨fun _ => rfl, rfl⟩, ?_,
    next⟩
  rw [if_pos (List.length_pos_iff.mpr filled)]
  rintro _ ⟨⟩
  exact ⟨by rintro ⟨⟩, fun _ => rfl⟩

/-- Some of the rest may be missing in the file when it is returned. -/
theorem may_receive_less {n : Nat} (file : w.files.get path = some old) (filled : old ≠ [])
    (less : n < rest.length) (unflushed : flushed = false)
    (same : ∀ hash, expected = some hash → hexEncode (sha256 (old ++ rest.take n)) = hash) :
    mayReturn (only (act setup) (Flushes flushed)) (serving (old ++ rest) old.length 206)
      (receive sha256 path old.length { status := 206 } expected withProgress)
      (fun _ w' => w'.files.get path ≠ some (old ++ rest)) w := by
  have lost : old ++ rest.take n ≠ old ++ rest := by
    intro whole
    have length := congrArg List.length (List.append_cancel_left whole)
    rw [List.length_take] at length
    omega
  simp only [receive, fetch, mayReturn_bind, mayReturn_attempt]
  refine ⟨{ body := rest }, .ok rest, w, only_eq_some.mpr ⟨fun _ => rfl, rfl⟩, ?_, ?_⟩
  · rintro _ ⟨⟩
    exact ⟨by rintro ⟨⟩, fun _ => List.drop_left.symm⟩
  change mayReturn _ _ (if _ then _ else _) _ _
  rw [if_pos (List.length_pos_iff.mpr filled), mayReturn_bind, mayReturn_attempt]
  have appended : act setup w (.append path rest) { written := some n } =
      some (.ok (), w.put path (old ++ rest.take n)) := by
    simp only [act, actAppend, file]
    rfl
  refine ⟨{ written := some n }, .ok (), _, only_eq_some.mpr ⟨?_, appended⟩, trivial, ?_⟩
  · intro all
    rw [unflushed] at all
    cases all
  have check : mayReturn (only (act setup) (Flushes flushed)) (serving (old ++ rest) old.length 206)
      (verifyHash sha256 path expected) (fun _ w' => w'.files.get path ≠ some (old ++ rest))
      (w.put path (old ++ rest.take n)) := by
    cases expected with
    | none =>
      change (w.put path (old ++ rest.take n)).files.get path ≠ _
      rw [World.get_put]
      simpa using lost
    | some hash =>
      simp only [verifyHash, sha256File, mayReturn_bind, mayReturn_attempt]
      have data : act setup (w.put path (old ++ rest.take n)) (.read path) default =
          some (.ok (old ++ rest.take n), w.put path (old ++ rest.take n)) := by
        simp only [act, onFile, World.get_put]
        rfl
      refine ⟨default, _, _, only_eq_some.mpr ⟨fun _ => rfl, data⟩, trivial, ?_⟩
      change mayReturn _ _ (if _ then _ else _) _ _
      rw [if_neg (not_not.mpr (same hash rfl)), mayReturn_pure, World.get_put]
      simpa using lost
  change mayReturn _ _ (if _ then _ else _) _ _
  split
  · rw [mayReturn_bind, mayReturn_always]
    exact ⟨default, (), _, only_eq_some.mpr ⟨fun _ => rfl, rfl⟩, trivial, check⟩
  · exact check

/-! ### The content of what is returned -/

/-- Whenever a file is returned it is the one at `path`, with all of the served content, of which
`rest` was not on disk. -/
def ReturnsContent (setup : Setup Key Value) (flushed : Bool) (status : Nat) (w : World)
    (path : String) (rest : Bytes) (p : ExceptT DownloadError (M Value) String) : Prop :=
  ∀ path' w', Returns (only (act setup) (Flushes flushed))
    (serving (w.content path ++ rest) (w.content path).length status) p w path' w' →
      path' = path ∧ w'.files.get path = some (w.content path ++ rest)

variable (setup flushed sha256 w rest expected withProgress) (dl : Downloader)
  (url filename : String) (status : Nat)

theorem returnsContent_download_iff :
    ReturnsContent setup flushed status w (join dl.downloadDir filename) rest
      (dl.download sha256 url filename expected withProgress) ↔
      w.content (join dl.downloadDir filename) = [] ∨ rest = [] ∨ status = 206 ∧
        Arrives flushed sha256 expected (w.content (join dl.downloadDir filename)) rest := by
  constructor
  · intro returned
    by_contra! neither
    obtain ⟨filled, missing, lost⟩ := neither
    obtain ⟨old, file⟩ : ∃ old, w.files.get (join dl.downloadDir filename) = some old := by
      apply Option.ne_none_iff_exists'.mp
      intro none
      simp [World.content, none] at filled
    have same : w.content (join dl.downloadDir filename) = old := by
      rw [World.content, file, Option.getD_some]
    suffices can : mayReturn (only (act setup) (Flushes flushed))
        (serving (old ++ rest) old.length status)
        (dl.download sha256 url filename expected withProgress)
        (fun _ w' => w'.files.get (join dl.downloadDir filename) ≠ some (old ++ rest)) w by
      obtain ⟨path', w', returns, wrong⟩ := exists_returns_of_may can
      rw [← same] at returns wrong
      exact wrong (returned path' w' returns).2
    rw [same] at filled lost
    apply may_download_of_reply file filled
    by_cases partialContent : status = 206
    · obtain rfl := partialContent
      obtain ⟨unflushed, undetected⟩ := not_or.mp (lost rfl)
      rw [if_pos (.inl rfl), mayReturn_bind]
      cases expected with
      | none =>
        exact may_receive_less (n := 0) file filled (List.length_pos_iff.mpr missing)
          (Bool.eq_false_iff.mpr unflushed) (by rintro _ ⟨⟩)
      | some hash =>
        have shorter : ∃ n < rest.length, hexEncode (sha256 (old ++ rest.take n)) = hash := by
          by_contra! none
          exact undetected ⟨hash, rfl, none⟩
        obtain ⟨n, less, same⟩ := shorter
        apply may_receive_less file filled less (Bool.eq_false_iff.mpr unflushed)
        rintro _ ⟨⟩
        exact same
    · rw [if_neg (not_or.mpr ⟨partialContent, fun none => filled (List.length_eq_zero_iff.mp none)⟩)]
      change w.files.get _ ≠ _
      rw [file]
      simpa using missing
  · intro resumes path' w' returns
    exact wpExcept_returns (wp_download_serving rfl resumes) returns

/-- Resuming gives what a fresh download gives iff nothing is on disk at first, or everything, or
the reply is partial content and gets to the file. An index has no hash, so for it this is up to
the flush. -/
theorem resumed_content_iff :
    (ReturnsContent setup flushed status w (join dl.downloadDir filename) rest
      (dl.download sha256 url filename expected withProgress) ↔
      w.content (join dl.downloadDir filename) = [] ∨ rest = [] ∨ status = 206 ∧
        Arrives flushed sha256 expected (w.content (join dl.downloadDir filename)) rest) ∧
    ∀ info : UpdateInfo,
      let path := join dl.downloadDir ("update-" ++ info.version ++ ".caibx")
      ReturnsContent setup flushed status w path rest
        (dl.downloadIndex sha256 { info with caibxUrl := some url }) ↔
        w.content path = [] ∨ rest = [] ∨ status = 206 ∧ flushed = true := by
  constructor
  · exact returnsContent_download_iff ..
  · intro info path
    have unchecked : Arrives flushed sha256 none (w.content path) rest ↔ flushed = true := by
      simp [Arrives]
    rw [← unchecked]
    exact returnsContent_download_iff ..

/-- A world with the first byte of an index on disk. -/
def partialIndex : World where
  files := HashMap.insert ∅ "/data/ota/update-2.0.0.caibx" [0x61]
  state := .idle
  log := []

def sampleDownloader : Downloader := ⟨"https://ota", "/data/ota"⟩

def sampleInfo : UpdateInfo :=
  { (default : UpdateInfo) with version := "2.0.0", caibxUrl := some "https://ota/b" }

/-- `"a"` of the index is on disk, and the server replies to the range with the whole of `"ab"`. -/
theorem index_not_resumed :
    exec (act sampleSetup) (sampleDownloader.downloadIndex sampleSha256 sampleInfo).run partialIndex
        [{}, {}, {}, { response := ⟨200, some 2⟩, body := [0x61, 0x62] }] =
      some (.ok "/data/ota/update-2.0.0.caibx", partialIndex, []) ∧
    ¬ ReturnsContent sampleSetup true 200 partialIndex "/data/ota/update-2.0.0.caibx" [0x62]
      (sampleDownloader.downloadIndex sampleSha256 sampleInfo) := by
  have name : "update-" ++ sampleInfo.version ++ ".caibx" = "update-2.0.0.caibx" := by decide
  have index : (sampleDownloader.downloadIndex sampleSha256 sampleInfo : ExceptT _ (M Unit) _) =
      sampleDownloader.download sampleSha256 "https://ota/b" "update-2.0.0.caibx" none false := by
    rw [← name]
    rfl
  rw [index]
  constructor
  · rfl
  · intro returned
    have resumed := returnsContent_download_iff sampleSetup true sampleSha256 partialIndex [0x62]
      none false sampleDownloader "https://ota/b" "update-2.0.0.caibx" 200
    have file : join sampleDownloader.downloadDir "update-2.0.0.caibx" =
        "/data/ota/update-2.0.0.caibx" := by decide
    rw [file] at resumed
    revert returned
    rw [resumed]
    simp [World.content, partialIndex, HashMap.get_insert]

end Downloader

end Otad
