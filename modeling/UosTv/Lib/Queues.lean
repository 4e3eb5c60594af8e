import Mathlib.Data.List.Basic
import Mathlib.Tactic.Common

/-!
Queues one behind the other, each of which may have a limit.

The first of them is where everything ends up, the last one is where it is put in. Whatever is
passed on and in whichever order, what is in the queues is, in order, what has been put in
(`flatten_put`, `flatten_pass`), and no queue grows beyond its limit (`Bounded.put`,
`Bounded.pass`).
-/

namespace Queues

variable {α : Type*}

/-- Puts an element into the last queue. -/
def put (a : α) : List (List α) → List (List α)
  | [] => []
  | [q] => [q ++ [a]]
  | q :: q' :: queues => q :: put a (q' :: queues)

/-- There is room in a queue. -/
def Room (limit : Option ℕ) (q : List α) : Prop := ∀ n ∈ limit, q.length < n

instance (limit : Option ℕ) (q : List α) : Decidable (Room limit q) :=
  match limit with
  | none => isTrue (by rintro n ⟨⟩)
  | some n => decidable_of_iff (q.length < n) (by simp [Room])

/-- Passes the first element of the queue behind queue `i` on to that queue, if there is one and
there is room for it. -/
def pass : ℕ → List (Option ℕ) → List (List α) → List (List α)
  | 0, limit :: _, q :: (a :: q') :: queues =>
    if Room limit q then (q ++ [a]) :: q' :: queues else q :: (a :: q') :: queues
  | i + 1, _ :: limits, q :: queues => q :: pass i limits queues
  | _, _, queues => queues

/-- The queues are within their limits, and the last one has none. -/
inductive Bounded : List (Option ℕ) → List (List α) → Prop
  | last (q : List α) : Bounded [none] [q]
  | cons {limit : Option ℕ} {limits : List (Option ℕ)} {q : List α} {queues : List (List α)}
    (within : ∀ n ∈ limit, q.length ≤ n) (rest : Bounded limits queues) :
    Bounded (limit :: limits) (q :: queues)

variable {a : α} {i : ℕ} {limits : List (Option ℕ)} {queues : List (List α)}

theorem flatten_put (a : α) (some_queue : queues ≠ []) :
    (put a queues).flatten = queues.flatten ++ [a] := by
  induction queues with
  | nil => exact absurd rfl some_queue
  | cons q queues ih =>
    cases queues with
    | nil => simp [put]
    | cons q' queues =>
      rw [put, List.flatten_cons, ih (List.cons_ne_nil _ _)]
      exact (List.append_assoc q _ _).symm

theorem flatten_pass : (pass i limits queues).flatten = queues.flatten := by
  fun_induction pass i limits queues with
  | case1 => simp
  | case2 => rfl
  | case3 i limit limits q queues ih => rw [List.flatten_cons, ih, List.flatten_cons]
  | case4 => rfl

theorem Bounded.ne_nil (bounded : Bounded limits queues) : queues ≠ [] := by
  cases bounded with
  | last q => exact List.cons_ne_nil _ _
  | cons within rest => exact List.cons_ne_nil _ _

theorem Bounded.put (bounded : Bounded limits queues) : Bounded limits (put a queues) := by
  induction bounded with
  | last q => exact .last _
  | cons within rest ih =>
    cases rest with
    | last q => exact .cons within (.last _)
    | cons within' rest => exact .cons within ih

theorem Bounded.pass (bounded : Bounded limits queues) : Bounded limits (pass i limits queues) := by
  fun_induction Queues.pass i limits queues with
  | case1 limit limits q a q' queues room =>
    cases bounded with
    | cons within rest =>
      refine .cons (fun n mem => ?_) ?_
      · rw [List.length_append, List.length_singleton]
        exact room n mem
      · cases rest with
        | last => exact .last q'
        | cons within' rest =>
          exact .cons (fun n mem => Nat.le_of_succ_le (within' n mem)) rest
  | case2 => exact bounded
  | case3 i limit limits q queues ih =>
    cases bounded with
    | last => cases i <;> exact .last q
    | cons within rest => exact .cons within (ih rest)
  | case4 => exact bounded

end Queues
