import UosTv.Lib.Effect

/-!
Fallible programs that issue operations.

`wpExcept` is the weakest precondition with two postconditions, one for the result and one
for the error. Its rules follow the program, as those of `wp` do. `mayReturn` is its dual: the
environment may answer in such a way that a result is returned. `attempt` runs what may answer
with an error, and ends the program there; `always` runs what may not.
-/

namespace Effect

variable {Op : Type} {Ans : Op → Type} {σ χ ε ε' α β : Type} (m : Machine Op Ans σ χ)
  (c : Contract Op Ans σ)

/-- `Q` of the result, `E` of the error. -/
def Ends (Q : α → σ → Prop) (E : ε → σ → Prop) : Except ε α → σ → Prop
  | .ok a => Q a
  | .error e => E e

/-- The weakest precondition of a fallible program. -/
def wpExcept (p : ExceptT ε (Prog Op Ans) α) (Q : α → σ → Prop) (E : ε → σ → Prop) (s : σ) : Prop :=
  wp m c p.run (Ends Q E) s

/-- A program that does not fail. -/
def always (p : Prog Op Ans α) : ExceptT ε (Prog Op Ans) α := ExceptT.mk do
  let a ← p
  pure (.ok a)

/-- The environment may answer in such a way that a result as in `Q` is returned. -/
def mayReturn (p : ExceptT ε (Prog Op Ans) α) (Q : α → σ → Prop) (s : σ) : Prop :=
  may m c p.run (Ends Q fun _ _ => False) s

/-- The `?` of Rust: an error ends the program, converted by `wrap`. -/
def attempt (wrap : ε' → ε) (p : Prog Op Ans (Except ε' α)) : ExceptT ε (Prog Op Ans) α :=
  ExceptT.mk do
    match ← p with
    | .ok a => pure (.ok a)
    | .error e => pure (.error (wrap e))

/-- Some run returns `a` in the state `s'`, with answers as relied on. -/
def Returns (p : ExceptT ε (Prog Op Ans) α) (s : σ) (a : α) (s' : σ) : Prop :=
  ∃ choices rest, exec m p.run s choices = some (.ok a, s', rest) ∧
    ∀ e ∈ trace m p.run s choices, e.Relied c

variable {m c} {Q : α → σ → Prop} {E : ε → σ → Prop} {s : σ}

/-! ### Rules of the weakest precondition -/

@[simp] theorem wpExcept_pure (a : α) :
    wpExcept m c (pure a : ExceptT ε (Prog Op Ans) α) Q E s ↔ Q a s := Iff.rfl

@[simp] theorem wpExcept_throw (e : ε) :
    wpExcept m c (throw e : ExceptT ε (Prog Op Ans) α) Q E s ↔ E e s := Iff.rfl

@[simp] theorem wpExcept_bind (p : ExceptT ε (Prog Op Ans) β) (f : β → ExceptT ε (Prog Op Ans) α) :
    wpExcept m c (p >>= f) Q E s ↔ wpExcept m c p (fun b s' => wpExcept m c (f b) Q E s') E s := by
  unfold wpExcept
  rw [ExceptT.run_bind, wp_bind]
  refine wp_congr fun r s' => ?_
  cases r with
  | ok b => exact Iff.rfl
  | error e => exact Iff.rfl

@[simp] theorem wpExcept_always (p : Prog Op Ans α) :
    wpExcept m c (always p : ExceptT ε (Prog Op Ans) α) Q E s ↔ wp m c p Q s := by
  unfold wpExcept always
  rw [ExceptT.run_mk, wp_bind]
  exact Iff.rfl

@[simp] theorem wpExcept_attempt (wrap : ε' → ε) (p : Prog Op Ans (Except ε' α)) :
    wpExcept m c (attempt wrap p) Q E s ↔ wp m c p (Ends Q fun e => E (wrap e)) s := by
  unfold wpExcept attempt
  rw [ExceptT.run_mk, wp_bind]
  refine wp_congr fun r s' => ?_
  cases r with
  | ok a => exact Iff.rfl
  | error e => exact Iff.rfl

theorem wpExcept_mono {p : ExceptT ε (Prog Op Ans) α} {Q' : α → σ → Prop} {E' : ε → σ → Prop}
    (pre : wpExcept m c p Q E s) (weaker : ∀ a s', Q a s' → Q' a s')
    (errors : ∀ e s', E e s' → E' e s') : wpExcept m c p Q' E' s := by
  refine wp_mono pre fun r s' => ?_
  cases r with
  | ok a => exact weaker a s'
  | error e => exact errors e s'

/-! ### Rules of the runs that can be chosen -/

@[simp] theorem mayReturn_pure (a : α) :
    mayReturn m c (pure a : ExceptT ε (Prog Op Ans) α) Q s ↔ Q a s := Iff.rfl

@[simp] theorem mayReturn_bind (p : ExceptT ε (Prog Op Ans) β)
    (f : β → ExceptT ε (Prog Op Ans) α) :
    mayReturn m c (p >>= f) Q s ↔ mayReturn m c p (fun b s' => mayReturn m c (f b) Q s') s := by
  unfold mayReturn
  rw [ExceptT.run_bind, may_bind]
  refine may_congr fun r s' => ?_
  cases r with
  | ok b => exact Iff.rfl
  | error e => exact Iff.rfl

@[simp] theorem mayReturn_always (p : Prog Op Ans α) :
    mayReturn m c (always p : ExceptT ε (Prog Op Ans) α) Q s ↔ may m c p Q s := by
  unfold mayReturn always
  rw [ExceptT.run_mk, may_bind]
  exact Iff.rfl

@[simp] theorem mayReturn_attempt (wrap : ε' → ε) (p : Prog Op Ans (Except ε' α)) :
    mayReturn m c (attempt wrap p) Q s ↔ may m c p (Ends Q fun _ _ => False) s := by
  unfold mayReturn attempt
  rw [ExceptT.run_mk, may_bind]
  refine may_congr fun r s' => ?_
  cases r with
  | ok a => exact Iff.rfl
  | error e => exact Iff.rfl

/-! ### Runs -/

/-- A run that begins with what may fail: it ends there, or goes on with the result. -/
theorem exec_attempt_bind {wrap : ε' → ε} {p : Prog Op Ans (Except ε' β)}
    {f : β → ExceptT ε (Prog Op Ans) α} {r : Except ε α} {s' : σ} {choices rest : List χ}
    (run : exec m (attempt wrap p >>= f).run s choices = some (r, s', rest)) :
    ∃ answer s₁ tail, exec m p s choices = some (answer, s₁, tail) ∧
      ((∃ e, answer = .error e ∧ r = .error (wrap e) ∧ s' = s₁) ∨
        ∃ b, answer = .ok b ∧ exec m (f b).run s₁ tail = some (r, s', rest)) := by
  rw [ExceptT.run_bind, exec_bind, attempt, ExceptT.run_mk, exec_bind] at run
  cases first : exec m p s choices with
  | none => rw [first] at run; cases run
  | some out =>
    obtain ⟨answer, s₁, tail⟩ := out
    rw [first] at run
    refine ⟨answer, s₁, tail, rfl, ?_⟩
    cases answer with
    | error e => cases run; exact .inl ⟨e, rfl, rfl, rfl⟩
    | ok b => exact .inr ⟨b, rfl, run⟩

/-- A run of what may fail, and nothing else. -/
theorem exec_attempt {wrap : ε' → ε} {p : Prog Op Ans (Except ε' α)} {e : ε} {s' : σ}
    {choices rest : List χ}
    (run : exec m (attempt wrap p).run s choices = some (.error e, s', rest)) :
    ∃ e', exec m p s choices = some (.error e', s', rest) ∧ wrap e' = e := by
  rw [attempt, ExceptT.run_mk, exec_bind] at run
  cases first : exec m p s choices with
  | none => rw [first] at run; cases run
  | some out =>
    obtain ⟨answer, s₁, tail⟩ := out
    rw [first] at run
    cases answer with
    | error e' => cases run; exact ⟨e', rfl, rfl⟩
    | ok b => cases run

/-- The postcondition holds of what is returned. -/
theorem wpExcept_returns {p : ExceptT ε (Prog Op Ans) α} (pre : wpExcept m c p Q E s) {a : α}
    {s' : σ} (returns : Returns m c p s a s') : Q a s' := by
  obtain ⟨choices, rest, run, relied⟩ := returns
  exact wp_exec (Q := Ends Q E) pre run relied

/-- What may be returned is. -/
theorem exists_returns_of_may {p : ExceptT ε (Prog Op Ans) α} (can : mayReturn m c p Q s) :
    ∃ a s', Returns m c p s a s' ∧ Q a s' := by
  obtain ⟨choices, r, s', run, post, relied⟩ := exists_exec_of_may can
  cases r with
  | ok a => exact ⟨a, s', ⟨choices, [], run, relied⟩, post⟩
  | error e => exact post.elim

/-! ### The operations of a fallible program -/

section Issues

variable {G : Op → Prop}

theorem Issues.run_bind {p : ExceptT ε (Prog Op Ans) α} {f : α → ExceptT ε (Prog Op Ans) β}
    (first : Issues G p.run) (next : ∀ a, Issues G (f a).run) : Issues G (p >>= f).run := by
  rw [ExceptT.run_bind]
  refine first.bind fun r => ?_
  cases r with
  | ok a => exact next a
  | error e => exact trivial

theorem Issues.always {p : Prog Op Ans α} (issues : Issues G p) :
    Issues G (always p : ExceptT ε (Prog Op Ans) α).run :=
  issues.bind fun _ => trivial

theorem Issues.attempt {wrap : ε' → ε} {p : Prog Op Ans (Except ε' α)} (issues : Issues G p) :
    Issues G (attempt wrap p).run := by
  refine issues.bind fun r => ?_
  cases r with
  | ok a => exact trivial
  | error e => exact trivial

end Issues

end Effect
