import Mathlib.Data.List.Basic
import Mathlib.Tactic.Common

/-!
Incremental decoders over a growing buffer.

A decoder looks at the symbols buffered so far and either waits for more or yields
one result and the remaining buffer. Its two laws are fields: a result consumes
something, and symbols that arrive later do not change a result already available.
`drain` takes results until the decoder waits, and `feed` appends fragments one by
one and drains after each. The main fact is `feed_eq_drain`: how a stream is cut
into fragments is not observable.
-/

namespace Incremental

/-- A decoder of results `ρ` from a buffer of symbols `β`. -/
structure Decoder (β ρ : Type*) where
  step : List β → Option (ρ × List β)
  shrinks : ∀ {buf r rest}, step buf = some (r, rest) → rest.length < buf.length
  stable : ∀ {buf r rest} (more : List β), step buf = some (r, rest) →
    step (buf ++ more) = some (r, rest ++ more)

variable {β ρ : Type*} (d : Decoder β ρ)

/-- Takes results until the decoder waits; the second component is the buffer left. -/
def drain (buf : List β) : List ρ × List β :=
  match taken : d.step buf with
  | none => ([], buf)
  | some (r, rest) =>
    have := d.shrinks taken
    (r :: (drain rest).1, (drain rest).2)
termination_by buf.length

/-- Appends the fragments one by one, draining the buffer after each. -/
def feed : List β → List (List β) → List ρ × List β
  | buf, [] => ([], buf)
  | buf, fragment :: fragments =>
    let now := drain d (buf ++ fragment)
    let later := feed now.2 fragments
    (now.1 ++ later.1, later.2)

variable {d}

theorem drain_of_step_eq_none {buf : List β} (waits : d.step buf = none) :
    drain d buf = ([], buf) := by
  rw [drain]
  split
  · rfl
  · rename_i taken
    rw [waits] at taken
    cases taken

theorem drain_of_step_eq_some {buf rest : List β} {r : ρ} (taken : d.step buf = some (r, rest)) :
    drain d buf = (r :: (drain d rest).1, (drain d rest).2) := by
  rw [drain]
  split
  · rename_i waits
    rw [waits] at taken
    cases taken
  · rename_i taken'
    rw [taken] at taken'
    cases taken'
    rfl

/-- After draining, the decoder waits for more. -/
theorem step_drain (buf : List β) : d.step (drain d buf).2 = none := by
  cases taken : d.step buf with
  | none => rw [drain_of_step_eq_none taken, taken]
  | some out =>
    have := d.shrinks taken
    rw [drain_of_step_eq_some taken]
    exact step_drain out.2
termination_by buf.length

/-- Draining a longer buffer is draining the shorter one first. -/
theorem drain_append (buf more : List β) :
    drain d (buf ++ more) = ((drain d buf).1 ++ (drain d ((drain d buf).2 ++ more)).1,
      (drain d ((drain d buf).2 ++ more)).2) := by
  cases taken : d.step buf with
  | none => rw [drain_of_step_eq_none taken, List.nil_append]
  | some out =>
    have := d.shrinks taken
    rw [drain_of_step_eq_some (d.stable more taken), drain_of_step_eq_some taken,
      drain_append out.2 more, List.cons_append]
termination_by buf.length

/-- **Fragmentation is not observable.** Feeding the fragments one by one gives the
results and the final buffer of the whole stream. -/
theorem feed_eq_drain {buf : List β} (waits : d.step buf = none) (fragments : List (List β)) :
    feed d buf fragments = drain d (buf ++ fragments.flatten) := by
  induction fragments generalizing buf with
  | nil => rw [feed, List.flatten_nil, List.append_nil, drain_of_step_eq_none waits]
  | cons fragment fragments ih =>
    rw [feed, ih (step_drain _), List.flatten_cons, ← List.append_assoc,
      drain_append (buf ++ fragment)]

/-- A stream made of pieces that each yield one result drains to those results. -/
theorem drain_flatten {pieces : List (List β)} {results : List ρ} (empty : d.step [] = none)
    (yields : List.Forall₂ (fun piece r => d.step piece = some (r, [])) pieces results) :
    drain d pieces.flatten = (results, []) := by
  induction yields with
  | nil => exact drain_of_step_eq_none empty
  | cons yield _ ih =>
    rw [List.flatten_cons, drain_of_step_eq_some (d.stable _ yield), List.nil_append, ih]

end Incremental
