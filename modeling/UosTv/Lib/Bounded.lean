import UosTv.Lib.Fallible

/-!
Programs that issue a bounded number of operations.

Such a program comes to its end if every operation that it issues is answered and there are as
many choices as operations (`exists_exec`).
-/

namespace Effect

variable {Op : Type} {Ans : Op → Type} {σ χ ε ε' α β : Type}

/-- At most `n` operations are issued, and each satisfies `G`. -/
def AtMost (G : Op → Prop) : Nat → Prog Op Ans α → Prop
  | _, .ret _ => True
  | 0, .op _ _ => False
  | n + 1, .op o next => G o ∧ ∀ answer, AtMost G n (next answer)

namespace AtMost

variable {G : Op → Prop} {n k : Nat}

theorem ret (a : α) : AtMost G n (pure a : Prog Op Ans α) := by
  cases n <;> trivial

theorem perform {o : Op} (good : G o) : AtMost G 1 (Prog.perform o : Prog Op Ans (Ans o)) :=
  ⟨good, fun _ => trivial⟩

theorem mono {p : Prog Op Ans α} (bounded : AtMost G n p) (more : n ≤ k) : AtMost G k p := by
  induction p generalizing n k with
  | ret a => exact ret a
  | op o next ih =>
    cases n with
    | zero => exact bounded.elim
    | succ n =>
      obtain ⟨k, rfl⟩ := Nat.exists_eq_succ_of_ne_zero (Nat.ne_zero_of_lt more)
      exact ⟨bounded.1, fun answer => ih answer (bounded.2 answer) (Nat.le_of_succ_le_succ more)⟩

theorem bind {p : Prog Op Ans α} {f : α → Prog Op Ans β} (first : AtMost G n p)
    (next : ∀ a, AtMost G k (f a)) : AtMost G (n + k) (p >>= f) := by
  change AtMost G (n + k) (p.bind f)
  induction p generalizing n with
  | ret a => exact (next a).mono (Nat.le_add_left _ _)
  | op o tail ih =>
    cases n with
    | zero => exact first.elim
    | succ n =>
      rw [Nat.add_right_comm]
      exact ⟨first.1, fun answer => ih answer (first.2 answer)⟩

theorem run_bind {p : ExceptT ε (Prog Op Ans) α} {f : α → ExceptT ε (Prog Op Ans) β}
    (first : AtMost G n p.run) (next : ∀ a, AtMost G k (f a).run) :
    AtMost G (n + k) (p >>= f).run := by
  rw [ExceptT.run_bind]
  refine first.bind fun r => ?_
  cases r with
  | ok a => exact next a
  | error e => exact ret _

theorem always {p : Prog Op Ans α} (bounded : AtMost G n p) :
    AtMost G n (always p : ExceptT ε (Prog Op Ans) α).run := by
  have whole : AtMost G (n + 0) (Effect.always p : ExceptT ε (Prog Op Ans) α).run :=
    bounded.bind fun _ => ret _
  exact whole

theorem attempt {wrap : ε' → ε} {p : Prog Op Ans (Except ε' α)} (bounded : AtMost G n p) :
    AtMost G n (attempt wrap p).run := by
  have whole : AtMost G (n + 0) (Effect.attempt wrap p).run := by
    refine bounded.bind fun r => ?_
    cases r with
    | ok a => exact ret _
    | error e => exact ret _
  exact whole

theorem issues {p : Prog Op Ans α} {G' : Op → Prop} (bounded : AtMost G n p)
    (weaker : ∀ o, G o → G' o) : Issues G' p := by
  induction p generalizing n with
  | ret a => trivial
  | op o next ih =>
    cases n with
    | zero => exact bounded.elim
    | succ n => exact ⟨weaker o bounded.1, fun answer => ih answer (bounded.2 answer)⟩

/-- With enough choices the program comes to its end. -/
theorem exists_exec {m : Machine Op Ans σ χ} {p : Prog Op Ans α} (bounded : AtMost G n p)
    (answers : ∀ s o choice, G o → (m s o choice).isSome) {s : σ} {choices : List χ}
    (enough : n ≤ choices.length) : ∃ out, exec m p s choices = some out := by
  induction p generalizing n s choices with
  | ret a => exact ⟨_, rfl⟩
  | op o next ih =>
    cases n with
    | zero => exact bounded.elim
    | succ n =>
      cases choices with
      | nil => cases enough
      | cons choice choices =>
        obtain ⟨out, done⟩ := Option.isSome_iff_exists.mp (answers s o choice bounded.1)
        simp only [exec, done]
        exact ih out.1 (bounded.2 out.1) (Nat.le_of_succ_le_succ enough)

end AtMost

end Effect
