import UosTv.Otad.Operations

/-!
The rules of the daemon's operations.

Each operation of the downloader has a rule for its weakest precondition under `replying`,
which relies on something of the server's replies and guarantees nothing. What only concerns
files leaves the state and the log as they are (`World.FilesOnly`).
-/

namespace Otad

open Effect Rust UpdateVerify

variable {Key Value : Type}

namespace World

variable {w w' : World}

/-- Only files may differ. -/
structure FilesOnly (w w' : World) : Prop where
  log : w'.log = w.log
  state : w'.state = w.state

@[refl] theorem FilesOnly.refl (w : World) : w.FilesOnly w := ⟨rfl, rfl⟩

theorem FilesOnly.trans {w'' : World} (first : w.FilesOnly w') (second : w'.FilesOnly w'') :
    w.FilesOnly w'' :=
  ⟨second.log.trans first.log, second.state.trans first.state⟩

theorem filesOnly_put (w : World) (path : String) (bytes : Bytes) :
    w.FilesOnly (w.put path bytes) := ⟨rfl, rfl⟩

/-- What is on disk; nothing if there is no file. -/
def content (w : World) (path : String) : Bytes := (w.files.get path).getD []

/-- A state is entered. -/
def enter (w : World) (new : OtaState) : World := { w.note (.state new) with state := new }

@[simp] theorem enter_state (w : World) (new : OtaState) : (w.enter new).state = new := rfl

@[simp] theorem enter_log (w : World) (new : OtaState) :
    (w.enter new).log = .state new :: w.log := rfl

@[simp] theorem note_state (w : World) (entry : Entry) : (w.note entry).state = w.state := rfl

@[simp] theorem note_log (w : World) (entry : Entry) : (w.note entry).log = entry :: w.log := rfl

/-- The SHA-256 of a file that exists, in hex. -/
def HasHash (w : World) (sha256 : Bytes → Bytes) (path hash : String) : Prop :=
  ∃ content, w.files.get path = some content ∧ hexEncode (sha256 content) = hash

end World

/-- The contract that relies on `R` of the replies of the server. -/
def replying (R : Response → Prop) : Contract (Op Value) Ans World where
  rely
    | _, .send _, answer => ∀ response, (answer : Except String Response) = .ok response → R response
    | _, _, _ => True
  guarantee _ _ := True

section Operations

variable {setup : Setup Key Value} {R : Response → Prop} {w : World} {path : String}

theorem answer_cases {α ε : Type} {failure : Option ε} {result : α} {r : Except ε α} {w' : World}
    {P : Except ε α → World → Prop} (done : answer failure result w = some (r, w'))
    (ok : P (.ok result) w) (error : ∀ e, P (.error e) w) : P r w' := by
  cases failure with
  | none => cases done; exact ok
  | some e => cases done; exact error e

theorem onFile_cases {α : Type} {failure : Option String} {f : Bytes → α} {r : Except String α}
    {w' : World} {P : Except String α → World → Prop}
    (done : onFile w path failure f = some (r, w'))
    (ok : ∀ content, w.files.get path = some content → P (.ok (f content)) w)
    (error : ∀ e, P (.error e) w) : P r w' := by
  unfold onFile at done
  split at done
  · cases done; exact error _
  · cases done; exact error _
  · rename_i content found
    cases done
    exact ok content found

theorem wp_createDirAll {Q : Except String Unit → World → Prop} (ok : Q (.ok ()) w)
    (error : ∀ e, Q (.error e) w) :
    wp (act setup) (replying R) (createDirAll path) Q w :=
  ⟨trivial, fun _ _ _ done _ => answer_cases done ok error⟩

theorem wp_pathExists {Q : Bool → World → Prop}
    (found : ∀ content, w.files.get path = some content → Q true w) (missing : Q false w) :
    wp (act setup) (replying R) (pathExists path) Q w := by
  refine ⟨trivial, ?_⟩
  rintro choice answer w' ⟨⟩ -
  cases file : w.files.get path with
  | none => exact missing
  | some content =>
    cases choice.failure with
    | none => exact found content file
    | some e => exact missing

theorem wp_fileLen {Q : Except String Nat → World → Prop}
    (ok : ∀ content, w.files.get path = some content → Q (.ok content.length) w)
    (error : ∀ e, Q (.error e) w) : wp (act setup) (replying R) (fileLen path) Q w :=
  ⟨trivial, fun _ _ _ done _ => onFile_cases done ok error⟩

theorem wp_read {Q : Except String Bytes → World → Prop}
    (ok : ∀ content, w.files.get path = some content → Q (.ok content) w)
    (error : ∀ e, Q (.error e) w) : wp (act setup) (replying R) (read path) Q w :=
  ⟨trivial, fun _ _ _ done _ => onFile_cases done ok error⟩

theorem wp_append {bytes : Bytes} {Q : Except String Unit → World → Prop}
    (ok : ∀ content, Q (.ok ()) (w.put path content))
    (error : ∀ e w', w.FilesOnly w' → Q (.error e) w') :
    wp (act setup) (replying R) (append path bytes) Q w := by
  refine ⟨trivial, fun choice answer w' done _ => ?_⟩
  change actAppend w path bytes choice = _ at done
  unfold actAppend at done
  split at done
  · cases done
    exact error _ w (.refl w)
  · exact answer_cases done (ok _) fun e => error e _ (w.filesOnly_put _ _)

theorem wp_write {bytes : Bytes} {Q : Except String Unit → World → Prop}
    (ok : Q (.ok ()) (w.put path bytes)) (error : ∀ e w', w.FilesOnly w' → Q (.error e) w') :
    wp (act setup) (replying R) (write path bytes) Q w := by
  refine ⟨trivial, fun choice answer w' done _ => ?_⟩
  change actWrite w path bytes choice = _ at done
  unfold actWrite at done
  split at done
  · cases done
    exact ok
  · cases done
    apply error
    cases choice.written with
    | none => exact .refl w
    | some n => exact w.filesOnly_put _ _

theorem wp_removeFile {Q : Except String Unit → World → Prop}
    (post : ∀ r w', w.FilesOnly w' → Q r w') :
    wp (act setup) (replying R) (removeFile path) Q w := by
  refine ⟨trivial, fun choice answer w' done _ => ?_⟩
  change actRemove w path choice.failure = _ at done
  unfold actRemove at done
  split at done
  · cases done
    exact post _ _ ⟨rfl, rfl⟩
  · cases done
    exact post _ _ (.refl w)

theorem wp_send {request : Request} {Q : Except String Response → World → Prop}
    (ok : ∀ response, R response → Q (.ok response) w) (error : ∀ e, Q (.error e) w) :
    wp (act setup) (replying R) (send request) Q w := by
  refine ⟨trivial, fun choice answer w' done relied => ?_⟩
  refine answer_cases (P := fun r w' => (∀ response, r = .ok response → R response) → Q r w') done
    (fun reply => ok _ (reply _ rfl)) (fun e _ => error e) relied

theorem wp_json {response : Response} {Q : Except String UpdateInfo → World → Prop}
    (ok : ∀ info, Q (.ok info) w) (error : ∀ e, Q (.error e) w) :
    wp (act setup) (replying R) (json response) Q w :=
  ⟨trivial, fun _ _ _ done _ => answer_cases done (ok _) error⟩

theorem wp_body {response : Response} {Q : Except String Bytes → World → Prop}
    (ok : ∀ bytes, Q (.ok bytes) w) (error : ∀ e, Q (.error e) w) :
    wp (act setup) (replying R) (body response) Q w :=
  ⟨trivial, fun _ _ _ done _ => answer_cases done (ok _) error⟩

theorem wp_progress {downloaded total : Nat} {Q : Unit → World → Prop} (post : Q () w) :
    wp (act setup) (replying R) (progress downloaded total) Q w :=
  (wp_determined (fun _ => rfl) trivial).mpr ⟨trivial, post⟩

theorem wp_raucStatus {Q : Except RaucError (List SlotStatus) → World → Prop}
    (ok : ∀ slots, Q (.ok slots) (w.note (.status slots))) (error : ∀ e, Q (.error e) w) :
    wp (act setup) (replying R) (raucStatus) Q w := by
  refine ⟨trivial, fun choice answer w' done _ => ?_⟩
  change actStatus w choice = _ at done
  unfold actStatus at done
  split at done
  · cases done
    exact ok _
  · cases done
    exact error _

theorem wp_raucInfo {Q : Except RaucError Unit → World → Prop}
    (ok : Q (.ok ()) (w.note (.info path true)))
    (error : ∀ e, Q (.error e) (w.note (.info path false))) :
    wp (act setup) (replying R) (raucInfo path) Q w := by
  refine ⟨trivial, ?_⟩
  rintro choice answer w' done -
  simp only [act] at done
  cases failed : choice.rauc with
  | none =>
    rw [failed] at done
    cases done
    exact ok
  | some e =>
    rw [failed] at done
    cases done
    exact error e

theorem wp_raucInstall {Q : Except RaucError Unit → World → Prop}
    (post : ∀ r, Q r (w.note (.install path))) :
    wp (act setup) (replying R) (raucInstall path) Q w :=
  ⟨trivial, fun _ _ _ done _ => answer_cases done (post _) fun _ => post _⟩

@[simp] theorem wp_state {Q : OtaState → World → Prop} :
    wp (act setup) (replying R) state Q w ↔ Q w.state w :=
  (wp_determined (fun _ => rfl) trivial).trans (and_iff_right trivial)

@[simp] theorem wp_putState {new : OtaState} {Q : Unit → World → Prop} :
    wp (act setup) (replying R) (putState new) Q w ↔ Q () (w.enter new) :=
  (wp_determined (fun _ => rfl) trivial).trans (and_iff_right trivial)

@[simp] theorem wp_publish {method : String} {payload : Payload} {Q : Unit → World → Prop} :
    wp (act setup) (replying R) (publish method payload) Q w ↔ Q () w :=
  (wp_determined (fun _ => rfl) trivial).trans (and_iff_right trivial)

@[simp] theorem wp_sleep {duration : Nat} {Q : Unit → World → Prop} :
    wp (act setup) (replying R) (sleep duration) Q w ↔ Q () w :=
  (wp_determined (fun _ => rfl) trivial).trans (and_iff_right trivial)

@[simp] theorem wp_interval {secs : Nat} {Q : Unit → World → Prop} :
    wp (act setup) (replying R) (interval secs) Q w ↔ Q () w :=
  (wp_determined (fun _ => rfl) trivial).trans (and_iff_right trivial)

@[simp] theorem wp_reboot {Q : Unit → World → Prop} :
    wp (act setup) (replying R) reboot Q w ↔ Q () (w.note .reboot) :=
  (wp_determined (fun _ => rfl) trivial).trans (and_iff_right trivial)

/-! Runs that can be chosen. -/

theorem may_pathExists {content : Bytes} (file : w.files.get path = some content)
    {Q : Bool → World → Prop} (post : Q true w) :
    may (act setup) (replying R) (pathExists path) Q w := by
  refine ⟨default, true, w, ?_, trivial, post⟩
  simp only [act, file]
  rfl

end Operations

end Otad
