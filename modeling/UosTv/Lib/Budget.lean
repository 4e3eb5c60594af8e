import UosTv.Lib.Effect

/-!
Programs that have only so many operations of a kind to spend, and are limited to others when they
have spent them.

`Budget G H n p` speaks of every path through `p`. Its rules follow the program
(`Budget.bind`), and `Budget.spent_le` and `Budget.trace_after` say what it means for runs.
-/

namespace Effect

open Prog

variable {Op : Type} {Ans : Op → Type} {σ χ α β : Type}

open Classical in
/-- After `n` operations with `G`, the program issues only operations with `H`. -/
noncomputable def Budget (G H : Op → Prop) : Nat → Prog Op Ans α → Prop
  | 0, p => Issues H p
  | _ + 1, .ret _ => True
  | n + 1, .op o next =>
    if G o then ∀ answer, Budget G H n (next answer) else ∀ answer, Budget G H (n + 1) (next answer)

section Rules

variable {G H H' : Op → Prop} {n k : Nat} {o : Op} {p : Prog Op Ans α} {f : α → Prog Op Ans β}

theorem Issues.mono (issues : Issues H' p) (all : ∀ o, H' o → H o) : Issues H p := by
  induction p with
  | ret a => trivial
  | op o next ih => exact ⟨all o issues.1, fun answer => ih answer (issues.2 answer)⟩

theorem budget_zero : Budget G H 0 p ↔ Issues H p := by
  rw [Budget]

theorem budget_op {next : Ans o → Prog Op Ans α} (spends : G o) :
    Budget G H (n + 1) (.op o next) ↔ ∀ answer, Budget G H n (next answer) := by
  rw [Budget, if_pos spends]

theorem budget_op_of_not {next : Ans o → Prog Op Ans α} (free : ¬ G o) :
    Budget G H (n + 1) (.op o next) ↔ ∀ answer, Budget G H (n + 1) (next answer) := by
  rw [Budget, if_neg free]

theorem budget_pure (a : α) : Budget G H n (pure a : Prog Op Ans α) := by
  cases n with
  | zero => trivial
  | succ n => trivial

/-- One operation spends one at most. -/
theorem budget_perform (o : Op) :
    Budget G (fun o => ¬ G o) 1 (perform o : Prog Op Ans (Ans o)) := by
  by_cases spends : G o
  · exact (budget_op spends).mpr fun _ => trivial
  · exact (budget_op_of_not spends).mpr fun _ => trivial

/-- There may be more to spend. -/
theorem Budget.succ (bounded : Budget G H n p) : Budget G H (n + 1) p := by
  induction p generalizing n with
  | ret a => trivial
  | op o next ih =>
    by_cases spends : G o
    · rw [budget_op spends]
      cases n with
      | zero => exact fun answer => budget_zero.mpr ((budget_zero.mp bounded).2 answer)
      | succ n => exact fun answer => ih answer ((budget_op spends).mp bounded answer)
    · rw [budget_op_of_not spends]
      cases n with
      | zero => exact fun answer => ih answer (budget_zero.mpr ((budget_zero.mp bounded).2 answer))
      | succ n => exact fun answer => ih answer ((budget_op_of_not spends).mp bounded answer)

theorem Budget.add (bounded : Budget G H n p) : Budget G H (k + n) p := by
  induction k with
  | zero => rwa [Nat.zero_add]
  | succ k ih =>
    rw [Nat.succ_add]
    exact ih.succ

variable (free : ∀ o, H' o → ¬ G o)
include free

/-- A program that spends nothing, and what comes after it. -/
theorem Issues.bind_budget (issues : Issues H' p) (limited : n = 0 → ∀ o, H' o → H o)
    (next : ∀ a, Budget G H n (f a)) : Budget G H n (p >>= f) := by
  cases n with
  | zero =>
    exact budget_zero.mpr ((issues.mono (limited rfl)).bind fun a => budget_zero.mp (next a))
  | succ n =>
    change Budget G H (n + 1) (p.bind f)
    induction p with
    | ret a => exact next a
    | op o tail ih =>
      rw [Prog.bind, budget_op_of_not (free o issues.1)]
      exact fun answer => ih answer (issues.2 answer)

/-- A program that spends nothing. -/
theorem Issues.budget (issues : Issues H' p) (limited : n = 0 → ∀ o, H' o → H o) :
    Budget G H n p := by
  cases n with
  | zero => exact budget_zero.mpr (issues.mono (limited rfl))
  | succ n =>
    induction p with
    | ret a => trivial
    | op o next ih =>
      rw [budget_op_of_not (free o issues.1)]
      exact fun answer => ih answer (issues.2 answer)

/-- **One program after another.** What both have to spend adds up. -/
theorem Budget.bind (first : Budget G H' k p) (limited : n = 0 → ∀ o, H' o → H o)
    (next : ∀ a, Budget G H n (f a)) : Budget G H (k + n) (p >>= f) := by
  change Budget G H (k + n) (p.bind f)
  induction p generalizing k with
  | ret a => exact (next a).add
  | op o tail ih =>
    cases k with
    | zero =>
      rw [Nat.zero_add]
      exact (budget_zero.mp first).bind_budget free limited next
    | succ k =>
      have more : k + 1 + n = k + n + 1 := Nat.succ_add k n
      rw [more, Prog.bind]
      by_cases spends : G o
      · rw [budget_op spends]
        exact fun answer => ih answer ((budget_op spends).mp first answer)
      · rw [budget_op_of_not spends, ← more]
        exact fun answer => ih answer ((budget_op_of_not spends).mp first answer)

end Rules

/-! ### Runs -/

section Runs

variable {m : Machine Op Ans σ χ} {G H : Op → Prop} {n : Nat} {p : Prog Op Ans α} {s : σ}
  {choices : List χ}

/-- The run of a program that begins with an operation. -/
theorem trace_op {o : Op} {next : Ans o → Prog Op Ans α} : ∃ e rest,
    trace m (.op o next) s choices = e :: rest ∧ e.op = o ∧
      (rest = [] ∨ ∃ answer s' choices', rest = trace m (next answer) s' choices') := by
  cases choices with
  | nil => exact ⟨_, _, rfl, rfl, .inl rfl⟩
  | cons choice choices =>
    simp only [trace]
    cases done : m s o choice with
    | none => exact ⟨_, _, rfl, rfl, .inl rfl⟩
    | some out => exact ⟨_, _, rfl, rfl, .inr ⟨_, _, _, rfl⟩⟩

variable [DecidablePred G]

/-- What has been spent in a run. -/
def spent (G : Op → Prop) [DecidablePred G] (events : List (Event Op Ans σ)) : Nat :=
  events.countP fun e => G e.op

theorem spent_cons (e : Event Op Ans σ) (events : List (Event Op Ans σ)) :
    spent G (e :: events) = spent G events + if G e.op then 1 else 0 := by
  simp [spent, List.countP_cons]

theorem spent_eq_zero {events : List (Event Op Ans σ)} (free : ∀ e ∈ events, ¬ G e.op) :
    spent G events = 0 := by
  rw [spent, List.countP_eq_zero]
  simpa using free

/-- When all has been spent, the run is limited. -/
theorem Budget.trace_after (bounded : Budget G H n p) {before after : List (Event Op Ans σ)}
    (split : trace m p s choices = before ++ after) (all : n ≤ spent G before) :
    ∀ e ∈ after, H e.op := by
  induction p generalizing n s choices before with
  | ret a =>
    obtain ⟨-, rfl⟩ := List.append_eq_nil_iff.mp split.symm
    intro e mem
    cases mem
  | op o next ih =>
    cases n with
    | zero =>
      intro e mem
      exact Issues.trace (budget_zero.mp bounded) e (split ▸ List.mem_append_right _ mem)
    | succ n =>
      cases before with
      | nil => exact absurd all (by simp [spent])
      | cons first before =>
        obtain ⟨e, rest, run, isOp, tail⟩ : ∃ e rest, trace m (.op o next) s choices = e :: rest ∧
          e.op = o ∧ (rest = [] ∨ ∃ answer s' choices', rest = trace m (next answer) s' choices') :=
            trace_op
        rw [run, List.cons_append] at split
        obtain ⟨rfl, remaining⟩ := List.cons.inj split
        rw [spent_cons, isOp] at all
        rcases tail with rfl | ⟨answer, s', choices', rfl⟩
        · obtain ⟨-, rfl⟩ := List.append_eq_nil_iff.mp remaining.symm
          intro e' mem
          cases mem
        by_cases spends : G o
        · rw [if_pos spends] at all
          exact ih answer ((budget_op spends).mp bounded answer) remaining (Nat.le_of_succ_le_succ all)
        · rw [if_neg spends] at all
          exact ih answer ((budget_op_of_not spends).mp bounded answer) remaining all

/-- No more is spent than there is. -/
theorem Budget.spent_le (free : ∀ o, H o → ¬ G o) (bounded : Budget G H n p) :
    spent G (trace m p s choices) ≤ n := by
  induction p generalizing n s choices with
  | ret a => exact Nat.zero_le n
  | op o next ih =>
    cases n with
    | zero =>
      exact Nat.le_of_eq (spent_eq_zero fun e mem =>
        free _ (Issues.trace (budget_zero.mp bounded) e mem))
    | succ n =>
      obtain ⟨e, rest, run, isOp, tail⟩ : ∃ e rest, trace m (.op o next) s choices = e :: rest ∧
        e.op = o ∧ (rest = [] ∨ ∃ answer s' choices', rest = trace m (next answer) s' choices') :=
          trace_op
      rw [run, spent_cons, isOp]
      by_cases spends : G o
      · rw [if_pos spends]
        apply Nat.succ_le_succ
        rcases tail with rfl | ⟨answer, s', choices', rfl⟩
        · exact Nat.zero_le n
        · exact ih answer ((budget_op spends).mp bounded answer)
      · rw [if_neg spends, Nat.add_zero]
        rcases tail with rfl | ⟨answer, s', choices', rfl⟩
        · exact Nat.zero_le _
        · exact ih answer ((budget_op_of_not spends).mp bounded answer)

end Runs

end Effect
