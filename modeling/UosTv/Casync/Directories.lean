import Mathlib.Data.List.Dedup
import UosTv.Casync.Files

/-!
The directories that the files of a store make up, and the removal of files.

A directory lists what lies directly under it, in an order that is not known, and the listing
may stop with an error. A directory from which all files have been removed may still be there.
-/

namespace Casync

open Effect Rust

/-- `fs::DirEntry`, with its type. -/
structure DirEntry where
  name : String
  isDir : Bool
deriving DecidableEq, Repr

inductive DirOp where
  | pathExists (path : String)
  | readDir (path : String)
  | fileType (entry : DirEntry)
  | removeFile (path : String)
  | overflow

/-- The answers. That of `readDir` is what the iterator goes through; an overflow is not
answered. -/
def DirAns : DirOp → Type
  | .pathExists _ => Bool
  | .readDir _ => Except String (List (Except String DirEntry))
  | .fileType _ => Except String Bool
  | .removeFile _ => Except String Unit
  | .overflow => Empty

abbrev D := Prog DirOp DirAns

def dirCall (o : DirOp) : D (DirAns o) := Prog.perform o

/-- `Path::exists`, of a directory. -/
def dirExists (path : String) : D Bool := dirCall (.pathExists path)

/-- `fs::read_dir`. -/
def readDir (path : String) : D (Except String (List (Except String DirEntry))) :=
  dirCall (.readDir path)

/-- `DirEntry::file_type` and `FileType::is_dir`. -/
def fileType (entry : DirEntry) : D (Except String Bool) := dirCall (.fileType entry)

/-- `fs::remove_file`. -/
def removeFile (path : String) : D (Except String Unit) := dirCall (.removeFile path)

/-! ### The world -/

/-- The text with which the paths in a directory begin. -/
def inside (dir : String) : String :=
  if dir = "" ∨ dir.toList.getLast? = some '/' then dir else dir ++ "/"

/-- The entry of a directory under which a path lies, if it lies in the directory. -/
def entryFor (dir path : String) : Option DirEntry :=
  (stripPrefix path (inside dir)).bind fun rest =>
    match splitOnce rest '/' with
    | none => if rest = "" then none else some ⟨rest, false⟩
    | some (name, _) => if name = "" then none else some ⟨name, true⟩

/-- What lies directly under a directory. -/
def World.entries (w : World) (dir : String) : List DirEntry :=
  (w.files.keys.filterMap (entryFor dir)).dedup

def World.remove (w : World) (path : String) : World := { w with files := w.files.remove path }

/-- A choice of the environment: the error of an operation that fails, whether a directory
without files is there, the names of those in the directory that is read, the order of the
listing, and the error with which it stops after some entries. -/
structure DirChoice where
  failure : Option String := none
  there : Bool := true
  hollow : List String := []
  order : Iter DirEntry := .listed
  stops : Option (Nat × String) := none

/-- Whether a directory is there. -/
def World.hasDir (w : World) (choice : DirChoice) (path : String) : Bool :=
  !(w.entries path).isEmpty || choice.there

def World.listing (w : World) (choice : DirChoice) (dir : String) : List (Except String DirEntry) :=
  let entries := choice.order.run (w.entries dir ++ choice.hollow.map (⟨·, true⟩))
  match choice.stops with
  | none => entries.map .ok
  | some (n, e) => (entries.take n).map .ok ++ [.error e]

def notADirectory : String := "Not a directory (os error 20)"

def isADirectory : String := "Is a directory (os error 21)"

/-- What an operation does. An overflow panics. -/
def dirAct : Machine DirOp DirAns World DirChoice := fun w o choice =>
  match o with
  | .pathExists path => some ((w.files.get path).isSome || w.hasDir choice path, w)
  | .readDir path =>
    match choice.failure with
    | some e => some (.error e, w)
    | none =>
      if (w.files.get path).isSome then some (.error notADirectory, w)
      else if w.hasDir choice path then some (.ok (w.listing choice path), w)
      else some (.error noSuchFile, w)
  | .fileType entry => some (choice.failure.elim (.ok entry.isDir) .error, w)
  | .removeFile path =>
    match choice.failure with
    | some e => some (.error e, w)
    | none =>
      if (w.files.get path).isSome then some (.ok (), w.remove path)
      else some (.error (if w.hasDir choice path then isADirectory else noSuchFile), w)
  | .overflow => none

/-! ### Listings -/

/-- An iteration gets to an entry, or stops before with an error. -/
def Reaches (items : List (Except String DirEntry)) (entry : DirEntry) : Prop :=
  .ok entry ∈ items ∨ ∃ e, .error e ∈ items

variable {w : World} {path dir name : String} {entry entry' : DirEntry} {choice : DirChoice}
  {items : List (Except String DirEntry)}

theorem reaches_cons : Reaches (.ok entry' :: items) entry ↔ entry = entry' ∨ Reaches items entry := by
  simp [Reaches, or_assoc]

theorem mem_entries : entry ∈ w.entries dir ↔
    ∃ path, (w.files.get path).isSome ∧ entryFor dir path = some entry := by
  rw [World.entries, List.mem_dedup, List.mem_filterMap]
  refine exists_congr fun path => and_congr_left fun _ => ?_
  rw [HashMap.mem_keys, Option.isSome_iff_exists]

/-- A listing gets to what lies in the directory. -/
theorem reaches_listing (mem : entry ∈ w.entries dir) : Reaches (w.listing choice dir) entry := by
  unfold World.listing
  cases choice.stops with
  | none =>
    refine .inl (List.mem_map.mpr ⟨entry, ?_, rfl⟩)
    exact (choice.order.perm _).mem_iff.mpr (List.mem_append_left _ mem)
  | some stop => exact .inr ⟨stop.2, List.mem_append_right _ List.mem_cons_self⟩

theorem get_remove (path' : String) :
    (w.remove path).files.get path' = if path' = path then none else w.files.get path' :=
  HashMap.get_remove _ _ _

/-- A path in a directory is below the entry of its first component. -/
theorem entryFor_below {rest : String} (some_name : name ≠ "") (apart : '/' ∉ name.toList) :
    entryFor dir (inside dir ++ name ++ "/" ++ rest) = some ⟨name, true⟩ := by
  have below : inside dir ++ name ++ "/" ++ rest =
      inside dir ++ (name ++ String.singleton '/' ++ rest) := by
    simp only [String.append_assoc]
    rfl
  rw [entryFor, below, stripPrefix_append, Option.bind_some, splitOnce_append apart]
  exact if_neg some_name

/-- A path of one component in a directory is a file of it. -/
theorem entryFor_file (some_name : name ≠ "") (apart : '/' ∉ name.toList) :
    entryFor dir (inside dir ++ name) = some ⟨name, false⟩ := by
  rw [entryFor, stripPrefix_append, Option.bind_some, splitOnce_of_not_mem apart]
  exact if_neg some_name

theorem join_eq (apart : '/' ∉ name.toList) :
    join dir name = inside dir ++ name := by
  have relative : startsWith name "/" = false := by
    rw [startsWith, decide_eq_false_iff_not]
    rintro ⟨rest, split⟩
    apply apart
    rw [← split]
    exact List.mem_cons_self
  unfold join inside
  rw [if_neg (by rw [relative]; exact Bool.false_ne_true)]
  split <;> rfl

/-- A directory that ends in a component. -/
theorem inside_append (some_name : name ≠ "") (apart : '/' ∉ name.toList) :
    inside (dir ++ name) = dir ++ name ++ "/" := by
  have last := List.getLast_mem (fun none => some_name (String.toList_inj.mp none))
  apply if_neg
  rintro (none | slash)
  · exact some_name (String.append_eq_empty_iff.mp none).2
  · rw [String.toList_append, List.getLast?_append_of_ne_nil _
      (fun none => some_name (String.toList_inj.mp none)), List.getLast?_eq_some_getLast
      (fun none => some_name (String.toList_inj.mp none)), Option.some.injEq] at slash
    rw [slash] at last
    exact apart last

/-! ### Rules -/

theorem wp_dirExists {Q : Bool → World → Prop} (found : Q true w)
    (none : (∀ entry, entry ∉ w.entries path) → Q false w) :
    wp dirAct free (dirExists path) Q w := by
  refine ⟨trivial, fun choice answer w' step _ => ?_⟩
  cases step
  cases there : (w.files.get path).isSome || w.hasDir choice path with
  | true => exact found
  | false =>
    apply none
    simp only [World.hasDir, Bool.or_eq_false_iff, Bool.not_eq_false', List.isEmpty_iff] at there
    rw [there.2.1]
    exact fun _ => List.not_mem_nil

theorem wp_readDir {Q : Except String (List (Except String DirEntry)) → World → Prop}
    (ok : ∀ items, (∀ entry ∈ w.entries dir, Reaches items entry) → Q (.ok items) w)
    (fails : ∀ e, Q (.error e) w) : wp dirAct free (readDir dir) Q w := by
  refine ⟨trivial, fun choice answer w' step _ => ?_⟩
  simp only [dirAct] at step
  split at step
  · cases step
    exact fails _
  · split at step
    · cases step
      exact fails _
    · split at step
      · cases step
        exact ok _ fun _ => reaches_listing
      · cases step
        exact fails _

theorem wp_fileType {Q : Except String Bool → World → Prop} (ok : Q (.ok entry.isDir) w)
    (fails : ∀ e, Q (.error e) w) : wp dirAct free (fileType entry) Q w := by
  refine ⟨trivial, fun choice answer w' step _ => ?_⟩
  cases step
  cases choice.failure with
  | none => exact ok
  | some e => exact fails e

theorem wp_removeFile {Q : Except String Unit → World → Prop} (ok : Q (.ok ()) (w.remove path))
    (fails : ∀ e, Q (.error e) w) : wp dirAct free (removeFile path) Q w := by
  refine ⟨trivial, fun choice answer w' step _ => ?_⟩
  simp only [dirAct] at step
  split at step
  · cases step
    exact fails _
  · split at step
    · cases step
      exact ok
    · cases step
      exact fails _

end Casync
