import UosTv.Lib.Choices
import UosTv.Rust.Collections
import UosTv.Rust.Hex

/-!
The files under a chunk store.

Paths are texts, and two paths are the same file iff they are the same text. Nobody else
writes the files, and those of the store can be looked up.
-/

namespace Casync

open Effect Rust

inductive Op where
  | pathExists (path : String)
  | createDirAll (path : String)
  | write (path : String) (bytes : Bytes)
  | read (path : String)
  | reserve (capacity : Nat)

/-- The answers. The errors are the texts of `io::Error`. -/
def Ans : Op → Type
  | .pathExists _ => Bool
  | .createDirAll _ | .write _ _ => Except String Unit
  | .read _ => Except String Bytes
  | .reserve _ => Unit

abbrev M := Prog Op Ans

def call (o : Op) : M (Ans o) := Prog.perform o

/-- `Path::exists`. -/
def pathExists (path : String) : M Bool := call (.pathExists path)

def createDirAll (path : String) : M (Except String Unit) := call (.createDirAll path)

/-- `fs::write`. -/
def write (path : String) (bytes : Bytes) : M (Except String Unit) := call (.write path bytes)

/-- `fs::read`. -/
def read (path : String) : M (Except String Bytes) := call (.read path)

/-- `Vec::with_capacity`. -/
def reserve (capacity : Nat) : M Unit := call (.reserve capacity)

/-! ### The world -/

structure World where
  files : HashMap String Bytes

/-- No files. -/
def World.empty : World := ⟨∅⟩

def World.put (w : World) (path : String) (bytes : Bytes) : World :=
  { w with files := w.files.insert path bytes }

theorem World.get_put (w : World) (path path' : String) (bytes : Bytes) :
    (w.put path bytes).files.get path' = if path' = path then some bytes else w.files.get path' :=
  HashMap.get_insert _ _ _ _

/-- A choice of the environment: the error with which an operation fails if it does, and how
much of the bytes to be written has got into the file before. -/
structure Choice where
  failure : Option String := none
  written : Option Nat := none
deriving DecidableEq, Repr, Inhabited

/-- The operation does not fail. -/
def Choice.Quiet (choice : Choice) : Prop := choice.failure = none

/-- A write that fails leaves no bytes behind. -/
def Choice.Clean (choice : Choice) : Prop := choice.failure = none ∨ choice.written = none

instance : DecidablePred Choice.Quiet := fun _ => inferInstanceAs (Decidable (_ = none))

instance : DecidablePred Choice.Clean := fun _ => inferInstanceAs (Decidable (_ ∨ _))

/-- A file that does not exist cannot be opened. -/
def noSuchFile : String := "No such file or directory (os error 2)"

/-- What an operation does. A capacity beyond `isize::MAX` panics, as a vector for which there
is no memory does. -/
def act : Machine Op Ans World Choice := fun w o choice =>
  match o with
  | .pathExists path => some ((w.files.get path).isSome, w)
  | .createDirAll _ => some (choice.failure.elim (.ok ()) .error, w)
  | .write path bytes =>
    match choice.failure with
    | none => some (.ok (), w.put path bytes)
    | some e => some (.error e, choice.written.elim w fun n => w.put path (bytes.take n))
  | .read path =>
    match choice.failure, w.files.get path with
    | some e, _ => some (.error e, w)
    | none, none => some (.error noSuchFile, w)
    | none, some content => some (.ok content, w)
  | .reserve capacity =>
    if capacity < 2 ^ 63 ∧ choice.failure = none then some ((), w) else none

/-! ### Rules -/

variable {w : World} {path : String} {bytes : Bytes}

section Allowed

variable {P : Choice → Prop} [DecidablePred P] {Q : Except String Unit → World → Prop}

theorem wp_pathExists {Q : Bool → World → Prop} (post : Q (w.files.get path).isSome w) :
    wp (only act P) free (pathExists path) Q w := by
  apply wp_only_perform
  rintro choice answer w' allowed ⟨⟩
  exact post

theorem wp_createDirAll (post : ∀ r, Q r w) : wp (only act P) free (createDirAll path) Q w := by
  apply wp_only_perform
  rintro choice answer w' allowed ⟨⟩
  exact post _

/-- A write that fails leaves the file as it was, or with some of the bytes. -/
theorem wp_write_of (ok : Q (.ok ()) (w.put path bytes)) (fails : ∀ e, Q (.error e) w)
    (cut : ∀ choice e n, P choice → choice.failure = some e → choice.written = some n →
      Q (.error e) (w.put path (bytes.take n))) :
    wp (only act P) free (write path bytes) Q w := by
  apply wp_only_perform
  intro choice answer w' allowed step
  simp only [act] at step
  cases failure : choice.failure with
  | none =>
    rw [failure] at step
    cases step
    exact ok
  | some e =>
    rw [failure] at step
    cases written : choice.written with
    | none =>
      rw [written] at step
      cases step
      exact fails e
    | some n =>
      rw [written] at step
      cases step
      exact cut choice e n allowed failure written

theorem wp_read {Q : Except String Bytes → World → Prop}
    (ok : ∀ content, w.files.get path = some content → Q (.ok content) w)
    (fails : ∀ e, Q (.error e) w) : wp (only act P) free (read path) Q w := by
  apply wp_only_perform
  intro choice answer w' allowed step
  simp only [act] at step
  split at step
  · cases step
    exact fails _
  · cases step
    exact fails _
  · cases step
    exact ok _ ‹_›

end Allowed

section Quiet

theorem settles_pathExists :
    Settles act Choice.Quiet (pathExists path) w (w.files.get path).isSome w :=
  .perform fun _ _ => rfl

theorem settles_createDirAll : Settles act Choice.Quiet (createDirAll path) w (.ok ()) w :=
  .perform fun choice quiet => by
    simp only [act, show choice.failure = none from quiet]
    rfl

theorem settles_write :
    Settles act Choice.Quiet (write path bytes) w (.ok ()) (w.put path bytes) :=
  .perform fun choice quiet => by simp [act, show choice.failure = none from quiet]

theorem settles_read (content : w.files.get path = some bytes) :
    Settles act Choice.Quiet (read path) w (.ok bytes) w :=
  .perform fun choice quiet => by simp [act, show choice.failure = none from quiet, content]

theorem settles_reserve {capacity : Nat} (fits : capacity < 2 ^ 63) :
    Settles act Choice.Quiet (reserve capacity) w () w :=
  .perform fun _ quiet => if_pos ⟨fits, quiet⟩

end Quiet

end Casync
