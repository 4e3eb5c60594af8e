import UosTv.Lib.Past
import UosTv.Rust.Text
import UosTv.Serde.Json

/-!
The writer of the log files (`logd`, `log_writer` and `open_log_file`).

The date and the size that the writer keeps decide when a file is opened, and the name of the file
depends on the date only. So a rotation for the size opens the file that is full
(`log_size_iff`), and a writer that has lost its file waits for a rotation (`log_losses_iff`).
-/

namespace Logd

open Past Rust SerdeJson

structure LogEntry where
  timestamp : String
  level : String
  service : String
  message : String
  pid : UInt32
  fields : Value

/-- `MAX_FILE_SIZE`. -/
def maxFileSize : Nat := 10 * 1024 * 1024

/-- The date of an entry, as it is written. -/
structure Today where
  text : String
  nonempty : text ≠ ""

/-- An entry is received: the date, whether a file can be opened, and, if the line cannot be
written, how many of its bytes are. -/
structure Turn where
  entry : LogEntry
  today : Today
  opens : Bool
  failure : Option Nat

/-- What is tried for an entry, and whether it succeeds. -/
inductive Attempt where
  | open (ok : Bool)
  | write (ok : Bool)
deriving DecidableEq, Repr

/-- The variables of `log_writer`, and the contents of the files. A file is the same as its path,
and nobody else writes it. -/
structure Writer where
  currentFile : Option String
  currentDate : String
  currentSize : Nat
  files : String → List UInt8

/-- The file of a day. -/
def logPath (logDir date : String) : String := join logDir ("uos-" ++ date ++ ".log")

/-- `open_log_file`, which leaves what is in the file. -/
def openLogFile (logDir date : String) (opens : Bool) : Option String :=
  if opens then some (logPath logDir date) else none

/-- A line of the log. `toString` is `serde_json::to_string`. -/
def line (toString : LogEntry → Option (List UInt8)) (entry : LogEntry) : List UInt8 :=
  (toString entry).getD [] ++ [10]

namespace Writer

def append (files : String → List UInt8) (path : String) (bytes : List UInt8) :
    String → List UInt8 :=
  fun path' => if path' = path then files path ++ bytes else files path'

def start (files : String → List UInt8) : Writer := ⟨none, "", 0, files⟩

/-- The day has changed or the file is too large. -/
def Rotates (w : Writer) (today : Today) : Prop :=
  w.currentDate ≠ today.text ∨ maxFileSize ≤ w.currentSize

instance (w : Writer) (today : Today) : Decidable (w.Rotates today) :=
  inferInstanceAs (Decidable (_ ∨ _))

/-- There is a file when the line is to be written. -/
def Ready (w : Writer) (t : Turn) : Prop :=
  if w.Rotates t.today then t.opens = true else w.currentFile ≠ none

instance (w : Writer) (t : Turn) : Decidable (w.Ready t) :=
  inferInstanceAs (Decidable (if w.Rotates t.today then t.opens = true else w.currentFile ≠ none))

/-- The rotation, with what is tried for it. -/
def rotate (logDir : String) (w : Writer) (t : Turn) : Writer × List Attempt :=
  if w.Rotates t.today then
    ({ w with
        currentFile := openLogFile logDir t.today.text t.opens
        currentDate := t.today.text
        currentSize := 0 }, [.open t.opens])
  else (w, [])

/-- The line is written if there is a file. -/
def write (toString : LogEntry → Option (List UInt8)) (w : Writer) (t : Turn) :
    Writer × List Attempt :=
  match w.currentFile with
  | some file =>
    match t.failure with
    | some n =>
      ({ w with
          currentFile := none
          files := append w.files file ((line toString t.entry).take n) }, [.write false])
    | none =>
      ({ w with
          currentSize := w.currentSize + (line toString t.entry).length
          files := append w.files file (line toString t.entry) }, [.write true])
  | none => (w, [])

/-- What is done for an entry. `cleanup_old_logs` does nothing. -/
def turn (toString : LogEntry → Option (List UInt8)) (logDir : String) (w : Writer) (t : Turn) :
    Writer × List Attempt :=
  let rotated := w.rotate logDir t
  let written := rotated.1.write toString t
  (written.1, rotated.2 ++ written.2)

/-- The writer after some entries, the newest first. -/
def exec (toString : LogEntry → Option (List UInt8)) (logDir : String)
    (files : String → List UInt8) : List Turn → Writer
  | [] => start files
  | t :: past => ((exec toString logDir files past).turn toString logDir t).1

end Writer

section Properties

variable (toString : LogEntry → Option (List UInt8)) (logDir : String)
  (files : String → List UInt8) (t : Turn) (past : List Turn)

/-- A file that grows is as large as is allowed, and a line more. -/
def GrowsWithin : Prop :=
  ∀ path, (Writer.exec toString logDir files (t :: past)).files path ≠
      (Writer.exec toString logDir files past).files path →
    ((Writer.exec toString logDir files (t :: past)).files path).length ≤
      maxFileSize + (line toString t.entry).length

/-- The bytes of the line that get into a file. -/
def written : Nat :=
  match t.failure with
  | some n => min n (line toString t.entry).length
  | none => (line toString t.entry).length

/-- The bytes that have been written to a file since the start. -/
def total (path : String) : List Turn → Nat
  | [] => 0
  | t :: past => total path past +
    if path = logPath logDir t.today.text ∧ (Writer.exec toString logDir files past).Ready t then
      written toString t
    else 0

/-- When the entry is written, the file of the day, with what was in it at the start and what has
been written to it since, is no larger than is allowed, or than what is missing of the line makes
up for. -/
def HasRoom : Prop :=
  (Writer.exec toString logDir files past).Ready t → written toString t ≠ 0 →
    (files (logPath logDir t.today.text)).length +
        total toString logDir files (logPath logDir t.today.text) past ≤
      maxFileSize + ((line toString t.entry).length - written toString t)

end Properties

/-! ### One entry -/

section Turn

variable (toString : LogEntry → Option (List UInt8)) (logDir : String) {w : Writer} {t : Turn}

/-- The file of the writer is that of its date. -/
def Writer.Dated (logDir : String) (w : Writer) : Prop :=
  ∀ file, w.currentFile = some file → file = logPath logDir w.currentDate

theorem take_written : (line toString t.entry).take (written toString t) =
    match t.failure with
    | some n => (line toString t.entry).take n
    | none => line toString t.entry := by
  rw [written]
  cases t.failure with
  | some n => exact List.take_eq_take_min.symm
  | none => exact List.take_length

/-- The rotation leaves the file of the day, if it leaves one. -/
theorem rotate_of_ready (dated : w.Dated logDir) (ready : w.Ready t) :
    (w.rotate logDir t).1.currentFile = some (logPath logDir t.today.text) ∧
      (w.rotate logDir t).1.currentDate = t.today.text ∧
      (w.rotate logDir t).1.files = w.files ∧
      (w.rotate logDir t).2 = if w.Rotates t.today then [.open true] else [] := by
  rw [Writer.Ready] at ready
  by_cases rotates : w.Rotates t.today
  · rw [if_pos rotates] at ready
    rw [Writer.rotate, if_pos rotates, if_pos rotates, openLogFile, if_pos ready, ready]
    exact ⟨rfl, rfl, rfl, rfl⟩
  · rw [if_neg rotates] at ready
    rw [Writer.rotate, if_neg rotates, if_neg rotates]
    obtain ⟨file, some_file⟩ := Option.ne_none_iff_exists'.mp ready
    have same : w.currentDate = t.today.text := not_not.mp fun other => rotates (.inl other)
    refine ⟨?_, same, rfl, rfl⟩
    rw [some_file, dated file some_file, same]

theorem rotate_of_not_ready (missing : ¬ w.Ready t) :
    (w.rotate logDir t).1.currentFile = none ∧
      (w.rotate logDir t).1.currentDate = t.today.text ∧
      (w.rotate logDir t).1.files = w.files ∧
      (w.rotate logDir t).2 = if w.Rotates t.today then [.open false] else [] := by
  rw [Writer.Ready] at missing
  by_cases rotates : w.Rotates t.today
  · rw [if_pos rotates, Bool.not_eq_true] at missing
    rw [Writer.rotate, if_pos rotates, if_pos rotates, openLogFile, missing]
    exact ⟨rfl, rfl, rfl, rfl⟩
  · rw [if_neg rotates, not_not] at missing
    rw [Writer.rotate, if_neg rotates, if_neg rotates]
    exact ⟨missing, not_not.mp fun other => rotates (.inl other), rfl, rfl⟩

theorem turn_of_ready (dated : w.Dated logDir) (ready : w.Ready t) :
    (w.turn toString logDir t).1.files = Writer.append w.files (logPath logDir t.today.text)
        ((line toString t.entry).take (written toString t)) ∧
      (w.turn toString logDir t).1.currentFile =
        (if t.failure.isNone then some (logPath logDir t.today.text) else none) ∧
      (w.turn toString logDir t).1.currentDate = t.today.text ∧
      (w.turn toString logDir t).2 =
        (if w.Rotates t.today then [.open true] else []) ++ [.write t.failure.isNone] := by
  obtain ⟨file, date, files, tried⟩ := rotate_of_ready logDir dated ready
  rw [Writer.turn, Writer.write, file, tried, take_written]
  cases t.failure with
  | some n => exact ⟨congrArg (Writer.append · _ _) files, rfl, date, rfl⟩
  | none => exact ⟨congrArg (Writer.append · _ _) files, rfl, date, rfl⟩

theorem turn_of_not_ready (missing : ¬ w.Ready t) :
    (w.turn toString logDir t).1.files = w.files ∧
      (w.turn toString logDir t).1.currentFile = none ∧
      (w.turn toString logDir t).1.currentDate = t.today.text ∧
      (w.turn toString logDir t).2 = if w.Rotates t.today then [.open false] else [] := by
  obtain ⟨file, date, files, tried⟩ := rotate_of_not_ready logDir missing
  rw [Writer.turn, Writer.write, file, tried]
  exact ⟨files, file, date, List.append_nil _⟩

end Turn

/-! ### Runs -/

section Runs

variable {toString : LogEntry → Option (List UInt8)} {logDir : String}
  {files : String → List UInt8} {t : Turn} {past : List Turn}

theorem dated_exec : (Writer.exec toString logDir files past).Dated logDir := by
  induction past with
  | nil => rintro file ⟨⟩
  | cons t past ih =>
    intro file some_file
    rw [Writer.exec] at some_file ⊢
    by_cases ready : (Writer.exec toString logDir files past).Ready t
    · obtain ⟨-, current, date, -⟩ := turn_of_ready toString logDir ih ready
      rw [current] at some_file
      rw [date]
      split at some_file
      · exact (Option.some.inj some_file).symm
      · cases some_file
    · obtain ⟨-, current, -, -⟩ := turn_of_not_ready toString logDir ready
      rw [current] at some_file
      cases some_file

theorem written_le (toString : LogEntry → Option (List UInt8)) (t : Turn) :
    written toString t ≤ (line toString t.entry).length := by
  rw [written]
  split
  · exact Nat.min_le_right _ _
  · exact Nat.le_refl _

theorem length_append {path path' : String} {bytes : List UInt8} :
    (Writer.append files path bytes path').length =
      (files path').length + if path' = path then bytes.length else 0 := by
  rw [Writer.append]
  split
  · rename_i here
    rw [List.length_append, here]
  · rfl

/-- A file only grows, by what is written to it. -/
theorem length_files {path : String} :
    ((Writer.exec toString logDir files past).files path).length =
      (files path).length + total toString logDir files path past := by
  induction past with
  | nil => rfl
  | cons t past ih =>
    rw [Writer.exec, total, ← Nat.add_assoc, ← ih]
    by_cases ready : (Writer.exec toString logDir files past).Ready t
    · obtain ⟨appended, -⟩ := turn_of_ready toString logDir dated_exec ready
      rw [appended, length_append, List.length_take_of_le (written_le toString t)]
      simp only [ready, and_true]
    · obtain ⟨same, -⟩ := turn_of_not_ready toString logDir ready
      rw [same]
      simp only [ready, and_false, if_false, Nat.add_zero]

/-- One entry. -/
theorem growsWithin_iff :
    GrowsWithin toString logDir files t past ↔ HasRoom toString logDir files t past := by
  have fits := written_le toString t
  by_cases ready : (Writer.exec toString logDir files past).Ready t
  · obtain ⟨appended, -⟩ := turn_of_ready toString logDir dated_exec ready
    have length : ((line toString t.entry).take (written toString t)).length = written toString t :=
      List.length_take_of_le fits
    rw [GrowsWithin, HasRoom, ← length_files, Writer.exec, appended]
    constructor
    · intro within _ some_bytes
      have grown := within (logPath logDir t.today.text)
      rw [Writer.append, if_pos rfl, List.length_append, length] at grown
      have longer := grown fun same => some_bytes (by
        rw [← length, List.self_eq_append_right.mp same.symm, List.length_nil])
      omega
    · intro room path grew
      rw [Writer.append] at grew ⊢
      by_cases here : path = logPath logDir t.today.text
      · subst here
        rw [if_pos rfl] at grew ⊢
        have some_bytes : written toString t ≠ 0 := by
          intro zero
          rw [zero, List.take_zero, List.append_nil] at grew
          exact grew rfl
        have room := room ready some_bytes
        rw [List.length_append, length]
        omega
      · rw [if_neg here] at grew
        exact absurd rfl grew
  · obtain ⟨same, -⟩ := turn_of_not_ready toString logDir ready
    rw [GrowsWithin, HasRoom, Writer.exec, same]
    exact iff_of_true (fun path grew => absurd rfl grew) fun ready' => absurd ready' ready

/-- A file that grows is that of the day. -/
theorem eq_logPath_of_grew {path : String}
    (grew : (Writer.exec toString logDir files (t :: past)).files path ≠
      (Writer.exec toString logDir files past).files path) :
    path = logPath logDir t.today.text := by
  by_contra other
  rw [Writer.exec] at grew
  by_cases ready : (Writer.exec toString logDir files past).Ready t
  · obtain ⟨appended, -⟩ := turn_of_ready toString logDir dated_exec ready
    rw [appended, Writer.append, if_neg other] at grew
    exact grew rfl
  · obtain ⟨same, -⟩ := turn_of_not_ready toString logDir ready
    rw [same] at grew
    exact grew rfl

end Runs

/-- **No file grows beyond the limit and a line iff** what the file of a day held at the start and all
that is written to it on that day but the last line fit in it. It is always the file of the day that
grows, also when it is full. -/
theorem log_size_iff (toString : LogEntry → Option (List UInt8)) (logDir : String)
    (files : String → List UInt8) (turns : List Turn) :
    ((∀ t past, t :: past <:+ turns → GrowsWithin toString logDir files t past) ↔
      ∀ t past, t :: past <:+ turns → HasRoom toString logDir files t past) ∧
    ∀ t past, t :: past <:+ turns → ∀ path,
      (Writer.exec toString logDir files (t :: past)).files path ≠
        (Writer.exec toString logDir files past).files path →
      path = logPath logDir t.today.text := by
  refine ⟨⟨fun within t past suffix => ?_, fun room t past suffix => ?_⟩,
    fun t past _ path grew => ?_⟩
  · exact growsWithin_iff.mp (within t past suffix)
  · exact growsWithin_iff.mpr (room t past suffix)
  · exact eq_logPath_of_grew grew

/-- An entry on the third of June, and the text that is written for it. -/
def sampleTurn (opens : Bool) : Turn where
  entry := ⟨"2025-06-03T10:30:00.123Z", "INFO", "netmd", "WiFi connected", 1234, .null⟩
  today := ⟨"2025-06-03", by decide⟩
  opens := opens
  failure := none

def messageText (entry : LogEntry) : Option (List UInt8) := some (asBytes entry.message)

/-- Files that are more than full. -/
def fullFiles (_ : String) : List UInt8 := List.replicate (maxFileSize + 1) 0

theorem length_fullFiles (path : String) : (fullFiles path).length = maxFileSize + 1 :=
  List.length_replicate

/-- The writer is started on a day whose file is more than full: it writes to that file. -/
theorem log_size_exceeded :
    ¬ GrowsWithin messageText "/data/logs" fullFiles (sampleTurn true) [] := by
  rw [growsWithin_iff, HasRoom]
  intro room
  have full := room rfl (by decide)
  have whole : written messageText (sampleTurn true) =
      (line messageText (sampleTurn true).entry).length := rfl
  rw [whole, Nat.sub_self, length_fullFiles] at full
  omega

end Logd
