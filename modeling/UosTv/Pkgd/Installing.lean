import UosTv.Pkgd.AppRegistry
import Mathlib.Logic.Function.Basic

/-!
What an install that fails leaves in the directory of the app (`install` in `registry.rs`).

The directory is created before the download, and then the two files are written where they stay.
Nothing is taken back when a later step fails, so an install leaves the directory as it was only if
there was nothing to change (`install_unchanged_iff`).

The machine here is for the operations of `install`, on the directory of one app.
-/

namespace Pkgd

open Effect Rust SerdeJson

/-- The files of a directory, by their paths. -/
abbrev Files := String → Option Bytes

namespace Files

/-- A new directory. -/
def empty : Files := fun _ => none

/-- A file holds the first `n` of the bytes. -/
def put (files : Files) (path : String) (bytes : Bytes) (n : Nat) : Files :=
  Function.update files path (some (bytes.take n))

/-- A write that fails: the file is as it was unless it has been opened. -/
def cutShort (files : Files) (path : String) (bytes : Bytes) (written : Option Nat) : Files :=
  written.elim files (files.put path bytes)

/-- A write that fails at this point leaves the file with the bytes that it has. -/
def Holds (files : Files) (path : String) (bytes : Bytes) (written : Option Nat) : Prop :=
  ∀ n ∈ written, files path = some (bytes.take n)

variable {files : Files} {path path' : String} {bytes bytes' : Bytes} {written : Option Nat} {n : Nat}

theorem put_same : files.put path bytes n path = some (bytes.take n) := Function.update_self _ _ _

theorem put_other (other : path' ≠ path) : files.put path bytes n path' = files path' :=
  Function.update_of_ne other _ _

theorem cutShort_other (other : path' ≠ path) :
    files.cutShort path bytes written path' = files path' := by
  cases written with
  | none => rfl
  | some n => exact put_other other

theorem cutShort_same_iff :
    files.cutShort path bytes written path = files path ↔ files.Holds path bytes written := by
  cases written with
  | none => simp [cutShort, Holds]
  | some n =>
    rw [cutShort, Option.elim_some, put_same]
    simp [Holds, eq_comm]

/-- Whether a directory is what it was is seen at the one file that has been written. -/
theorem cutShort_eq_iff : files.cutShort path bytes written = files ↔
    files.Holds path bytes written := by
  rw [← cutShort_same_iff]
  refine ⟨fun same => congrFun same path, fun same => funext fun path' => ?_⟩
  by_cases other : path' = path
  · rw [other, same]
  · exact cutShort_other other

theorem put_eq (held : files path = some bytes) : files.put path bytes bytes.length = files := by
  rw [put, List.take_length, ← held, Function.update_eq_self]

/-- Two files have been written, the second in part. -/
theorem cutShort_put_eq_iff (other : path ≠ path') :
    (files.put path bytes bytes.length).cutShort path' bytes' written = files ↔
      files path = some bytes ∧ files.Holds path' bytes' written := by
  constructor
  · intro same
    have held : files path = some bytes := by
      rw [← congrFun same path, cutShort_other other, put_same, List.take_length]
    rw [put_eq held] at same
    exact ⟨held, cutShort_eq_iff.mp same⟩
  · rintro ⟨held, holds⟩
    rw [put_eq held]
    exact cutShort_eq_iff.mpr holds

end Files

/-! ### Runs -/

/-- Writing a file of a directory. -/
def actWriteIn (dir : Option Files) (path : String) (bytes : Bytes) (choice : Choice) :
    Except String Unit × Option Files :=
  match dir with
  | none => (.error noSuchFile, none)
  | some files => match choice.failure with
    | none => (.ok (), some (files.put path bytes bytes.length))
    | some e => (.error e, some (files.cutShort path bytes choice.written))

/-- What an operation does to the directory of an app, if there is one. The others are not
issued. -/
def actOnApp : Machine Op Ans (Option Files) Choice := fun dir o choice =>
  match o with
  | .createDirAll _ => some (answer choice.failure (),
      choice.failure.elim (some (dir.getD .empty)) fun _ => dir)
  | .get _ => some (answer choice.failure choice.body, dir)
  | .write path bytes => some (actWriteIn dir path bytes choice)
  | _ => none

/-- What `install` writes to `manifest.json`. -/
def manifestBytes (id url : String) : Bytes :=
  asBytes (String.ofList (pretty 0 (AppRegistry.manifest id url)))

section Install

variable (appDir : String) (manifest : Bytes) (dir : Option Files)

/-- The choices by which an install fails, and the directory that it leaves. -/
inductive Stopped : List Choice → Option Files → Prop where
  | creating {mkdir : Choice} {rest : List Choice} (failed : mkdir.failure ≠ none) :
      Stopped (mkdir :: rest) dir
  | downloading {mkdir get : Choice} {rest : List Choice} (created : mkdir.failure = none)
      (failed : get.failure ≠ none) :
      Stopped (mkdir :: get :: rest) (some (dir.getD .empty))
  | bundle {mkdir get bundle : Choice} {rest : List Choice} (created : mkdir.failure = none)
      (downloaded : get.failure = none) (failed : bundle.failure ≠ none) :
      Stopped (mkdir :: get :: bundle :: rest)
        (some ((dir.getD .empty).cutShort (join appDir "bundle.uosp") get.body bundle.written))
  | manifest {mkdir get bundle last : Choice} {rest : List Choice}
      (created : mkdir.failure = none) (downloaded : get.failure = none)
      (saved : bundle.failure = none) (failed : last.failure ≠ none) :
      Stopped (mkdir :: get :: bundle :: last :: rest)
        (some (((dir.getD .empty).put (join appDir "bundle.uosp") get.body get.body.length).cutShort
          (join appDir "manifest.json") manifest last.written))

/-- An install that fails with nothing to take back: the directory is not created, or it was there
and the files that have been opened held what has been written to them. -/
inductive Harmless : List Choice → Prop where
  | creating {mkdir : Choice} {rest : List Choice} (failed : mkdir.failure ≠ none) :
      Harmless (mkdir :: rest)
  | downloading {mkdir get : Choice} {rest : List Choice} (failed : get.failure ≠ none)
      (present : dir ≠ none) : Harmless (mkdir :: get :: rest)
  | bundle {mkdir get bundle : Choice} {rest : List Choice} {files : Files}
      (failed : bundle.failure ≠ none) (present : dir = some files)
      (holds : files.Holds (join appDir "bundle.uosp") get.body bundle.written) :
      Harmless (mkdir :: get :: bundle :: rest)
  | manifest {mkdir get bundle last : Choice} {rest : List Choice} {files : Files}
      (saved : bundle.failure = none) (present : dir = some files)
      (same : files (join appDir "bundle.uosp") = some get.body)
      (holds : files.Holds (join appDir "manifest.json") manifest last.written) :
      Harmless (mkdir :: get :: bundle :: last :: rest)

variable {appDir : String} {manifest : Bytes} {dir dir' : Option Files} {choices : List Choice}

theorem some_getD_eq_iff : some (dir.getD .empty) = dir ↔ dir ≠ none := by
  cases dir <;> simp

/-- The directory is there, and a change of its files is none. -/
theorem some_eq_iff (f : Files → Files) : some (f (dir.getD .empty)) = dir ↔
    ∃ files, dir = some files ∧ f files = files := by
  cases dir <;> simp

theorem bundle_ne_manifest : join appDir "bundle.uosp" ≠ join appDir "manifest.json" :=
  join_ne (by decide) (by decide)

/-- Wherever an install fails, the directory is as it was iff that does no harm. -/
theorem Stopped.unchanged_iff (stopped : Stopped appDir manifest dir choices dir') :
    dir' = dir ↔ Harmless appDir manifest dir choices := by
  cases stopped with
  | creating failed => exact iff_of_true rfl (.creating failed)
  | downloading created failed =>
    rw [some_getD_eq_iff]
    constructor
    · exact .downloading failed
    · rintro (⟨failed⟩ | ⟨-, present⟩ | ⟨-, present, -⟩ | ⟨-, present, -, -⟩)
      · exact absurd created failed
      · exact present
      · exact present ▸ Option.some_ne_none _
      · exact present ▸ Option.some_ne_none _
  | bundle created downloaded failed =>
    rw [some_eq_iff fun files => files.cutShort _ _ _]
    constructor
    · rintro ⟨files, present, same⟩
      exact .bundle failed present (Files.cutShort_eq_iff.mp same)
    · rintro (⟨failed⟩ | ⟨failed, -⟩ | ⟨-, present, holds⟩ | ⟨saved, -, -, -⟩)
      · exact absurd created failed
      · exact absurd downloaded failed
      · exact ⟨_, present, Files.cutShort_eq_iff.mpr holds⟩
      · exact absurd saved failed
  | manifest created downloaded saved failed =>
    rw [some_eq_iff fun files => (files.put _ _ _).cutShort _ _ _]
    constructor
    · rintro ⟨files, present, same⟩
      obtain ⟨held, holds⟩ := (Files.cutShort_put_eq_iff bundle_ne_manifest).mp same
      exact .manifest saved present held holds
    · rintro (⟨failed⟩ | ⟨failed, -⟩ | ⟨failed, -, -⟩ | ⟨-, present, held, holds⟩)
      · exact absurd created failed
      · exact absurd downloaded failed
      · exact absurd saved failed
      · exact ⟨_, present, (Files.cutShort_put_eq_iff bundle_ne_manifest).mpr ⟨held, holds⟩⟩

end Install

/-! ### The program -/

section Steps

variable {dir dir' : Option Files} {choices rest : List Choice}

theorem exec_createDirAll {path : String} {answer : Except String Unit}
    (ran : exec actOnApp (createDirAll path) dir choices = some (answer, dir', rest)) :
    ∃ choice, choices = choice :: rest ∧
      ((∃ e, answer = .error e ∧ choice.failure ≠ none ∧ dir' = dir) ∨
        answer = .ok () ∧ choice.failure = none ∧ dir' = some (dir.getD .empty)) := by
  obtain ⟨choice, here, done⟩ := exec_perform ran
  refine ⟨choice, here, ?_⟩
  simp only [actOnApp, Pkgd.answer] at done
  cases failure : choice.failure with
  | none => rw [failure] at done; cases done; exact .inr ⟨rfl, rfl, rfl⟩
  | some e => rw [failure] at done; cases done; exact .inl ⟨e, rfl, Option.some_ne_none e, rfl⟩

theorem exec_get {url : String} {answer : Except String Bytes}
    (ran : exec actOnApp (get url) dir choices = some (answer, dir', rest)) :
    ∃ choice, choices = choice :: rest ∧ dir' = dir ∧
      ((∃ e, answer = .error e ∧ choice.failure ≠ none) ∨
        answer = .ok choice.body ∧ choice.failure = none) := by
  obtain ⟨choice, here, done⟩ := exec_perform ran
  refine ⟨choice, here, ?_⟩
  simp only [actOnApp, Pkgd.answer] at done
  cases failure : choice.failure with
  | none => rw [failure] at done; cases done; exact ⟨rfl, .inr ⟨rfl, rfl⟩⟩
  | some e => rw [failure] at done; cases done; exact ⟨rfl, .inl ⟨e, rfl, Option.some_ne_none e⟩⟩

theorem exec_write {files : Files} {path : String} {bytes : Bytes} {answer : Except String Unit}
    (ran : exec actOnApp (write path bytes) (some files) choices = some (answer, dir', rest)) :
    ∃ choice, choices = choice :: rest ∧
      ((∃ e, answer = .error e ∧ choice.failure ≠ none ∧
          dir' = some (files.cutShort path bytes choice.written)) ∨
        answer = .ok () ∧ choice.failure = none ∧
          dir' = some (files.put path bytes bytes.length)) := by
  obtain ⟨choice, here, done⟩ := exec_perform ran
  refine ⟨choice, here, ?_⟩
  simp only [actOnApp, actWriteIn] at done
  cases failure : choice.failure with
  | none => rw [failure] at done; cases done; exact .inr ⟨rfl, rfl, rfl⟩
  | some e => rw [failure] at done; cases done; exact .inl ⟨e, rfl, Option.some_ne_none e, rfl⟩

/-- How an install fails. -/
theorem stopped_of_install {reg : AppRegistry} {id url e : String}
    (ran : exec actOnApp (reg.install id url).run dir choices = some (.error e, dir', rest)) :
    Stopped (join reg.appsDir id) (manifestBytes id url) dir choices dir' := by
  obtain ⟨answer, made, choices₁, first, next⟩ := exec_attempt_bind ran
  obtain ⟨mkdir, rfl, ⟨_, rfl, failed, rfl⟩ | ⟨rfl, created, rfl⟩⟩ := exec_createDirAll first
  · obtain ⟨_, -, -, rfl⟩ | ⟨_, ⟨⟩, -⟩ := next
    exact .creating failed
  obtain ⟨_, ⟨⟩, -⟩ | ⟨_, -, ran⟩ := next
  obtain ⟨answer, made, choices₂, second, next⟩ := exec_attempt_bind ran
  obtain ⟨get, rfl, rfl, ⟨_, rfl, failed⟩ | ⟨rfl, downloaded⟩⟩ := exec_get second
  · obtain ⟨_, -, -, rfl⟩ | ⟨_, ⟨⟩, -⟩ := next
    exact .downloading created failed
  obtain ⟨_, ⟨⟩, -⟩ | ⟨_, ⟨⟩, ran⟩ := next
  obtain ⟨answer, made, choices₃, third, next⟩ := exec_attempt_bind ran
  obtain ⟨bundle, rfl, ⟨_, rfl, failed, rfl⟩ | ⟨rfl, saved, rfl⟩⟩ := exec_write third
  · obtain ⟨_, -, -, rfl⟩ | ⟨_, ⟨⟩, -⟩ := next
    exact .bundle created downloaded failed
  obtain ⟨_, ⟨⟩, -⟩ | ⟨_, -, ran⟩ := next
  obtain ⟨_, last, -⟩ := exec_attempt ran
  obtain ⟨manifest, rfl, ⟨_, -, failed, rfl⟩ | ⟨⟨⟩, -, -⟩⟩ := exec_write last
  exact .manifest created downloaded saved failed

end Steps

/-- **An install that fails leaves the directory of the app as it was iff** the directory could not
be created; or there was one, and the download has failed, or the bundle, or after it the manifest,
could not be written, and each file that has been opened held what has been written to it. -/
theorem install_unchanged_iff (reg : AppRegistry) (id url e : String) (dir dir' : Option Files)
    (choices rest : List Choice)
    (ran : exec actOnApp (reg.install id url).run dir choices = some (.error e, dir', rest)) :
    dir' = dir ↔ Harmless (join reg.appsDir id) (manifestBytes id url) dir choices :=
  (stopped_of_install ran).unchanged_iff

/-! ### Examples -/

def installRegistry : AppRegistry := ⟨"/apps", ∅, "/apps/registry.json"⟩

/-- The run of an install on a directory. -/
def installRun (dir : Option Files) (choices : List Choice) :
    Option (Except String Unit × Option Files × List Choice) :=
  exec actOnApp (installRegistry.install "com.uos.youtube" "http://uos.tv/youtube").run dir choices

/-- An app that has been installed, with the bundle `[1]` and the manifest `[2]`. -/
def installedFiles : Files :=
  (Files.empty.put "/apps/com.uos.youtube/bundle.uosp" [1] 1).put
    "/apps/com.uos.youtube/manifest.json" [2] 1

/-- A failure of an operation before anything has been written. -/
def failing (e : String) : Choice := { failure := some e }

def downloading (body : Bytes) : Choice := { body }

/-- The same bundle is installed again, and the manifest cannot be opened. -/
theorem install_again_unchanged : ∃ dir',
    installRun (some installedFiles) [{}, downloading [1], {}, failing "read-only"] =
      some (.error "read-only", dir', []) ∧ dir' = some installedFiles := by
  refine ⟨_, rfl, ?_⟩
  refine (install_unchanged_iff installRegistry "com.uos.youtube" "http://uos.tv/youtube" "read-only"
    (some installedFiles) _ [{}, downloading [1], {}, failing "read-only"] [] rfl).mpr ?_
  refine .manifest rfl rfl rfl ?_
  rintro n ⟨⟩

/-- A download that fails leaves an empty directory; a manifest that cannot be written is left next
to the new bundle. -/
theorem install_leaves_traces :
    installRun none [{}, failing "timed out"] =
        some (.error "timed out", some Files.empty, []) ∧
      ∃ files, installRun (some installedFiles) [{}, downloading [3], {}, failing "disk full"] =
          some (.error "disk full", some files, []) ∧
        files "/apps/com.uos.youtube/bundle.uosp" = some [3] ∧
        files "/apps/com.uos.youtube/manifest.json" = some [2] :=
  ⟨rfl, _, rfl, rfl, rfl⟩

end Pkgd
