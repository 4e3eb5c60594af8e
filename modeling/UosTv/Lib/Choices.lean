import UosTv.Lib.Fallible

/-!
Runs under a class of choices of the environment.

`only P` is the machine that makes the choices in `P`: runs with such choices are runs of it,
so a weakest precondition under `only P` speaks of them (`wpExcept_exec_only`). A program
settles if all choices in `P` lead to one result, provided there are enough of them.
-/

namespace Effect

variable {Op : Type} {Ans : Op → Type} {σ χ ε ε' α β : Type}

/-- The machine, with the choices in `P` only. -/
def only (m : Machine Op Ans σ χ) (P : χ → Prop) [DecidablePred P] : Machine Op Ans σ χ :=
  fun s o choice => if P choice then m s o choice else none

/-- The contract that neither relies on anything nor guarantees anything. -/
def free : Contract Op Ans σ := ⟨fun _ _ _ => True, fun _ _ => True⟩

variable {m : Machine Op Ans σ χ} {P : χ → Prop} {s s' s'' : σ} {a : α} {b : β}

theorem wp_free_true (p : Prog Op Ans α) (s : σ) : wp m free p (fun _ _ => True) s := by
  induction p generalizing s with
  | ret a => trivial
  | op o next ih => exact ⟨trivial, fun _ answer s' _ _ => ih answer s'⟩

theorem wpExcept_free {p : ExceptT ε (Prog Op Ans) α} {Q : α → σ → Prop} {E : ε → σ → Prop}
    (ok : ∀ a s', Q a s') (fails : ∀ e s', E e s') : wpExcept m free p Q E s := by
  apply wp_mono (wp_free_true p.run s)
  intro r s' _
  cases r with
  | ok a => exact ok a s'
  | error e => exact fails e s'

section Only

variable [DecidablePred P]

theorem exec_only {p : Prog Op Ans α} {choices : List χ} (all : ∀ x ∈ choices, P x) :
    exec (only m P) p s choices = exec m p s choices := by
  induction p generalizing s choices with
  | ret a => rfl
  | op o next ih =>
    cases choices with
    | nil => rfl
    | cons choice choices =>
      obtain ⟨here, later⟩ := List.forall_mem_cons.mp all
      have same : only m P s o choice = m s o choice := if_pos here
      simp only [exec, same]
      cases m s o choice with
      | none => rfl
      | some r => exact ih r.1 later

theorem only_eq_some {o : Op} {choice : χ} {r : Ans o × σ} :
    only m P s o choice = some r ↔ P choice ∧ m s o choice = some r := by
  unfold only
  split
  · exact (and_iff_right ‹_›).symm
  · exact iff_of_false (Option.some_ne_none r).symm fun possible => absurd possible.1 ‹_›

/-- What holds whatever is chosen. -/
theorem wp_only {c : Contract Op Ans σ} {p : Prog Op Ans α} {Q : α → σ → Prop}
    (pre : wp m c p Q s) : wp (only m P) c p Q s := by
  induction p generalizing s with
  | ret a => exact pre
  | op o next ih =>
    apply And.intro pre.1
    intro choice answer s' done relied
    exact ih answer (pre.2 choice answer s' (only_eq_some.mp done).2 relied)

theorem wp_only_perform {o : Op} {Q : Ans o → σ → Prop}
    (post : ∀ choice answer s', P choice → m s o choice = some (answer, s') → Q answer s') :
    wp (only m P) free (Prog.perform o) Q s := by
  refine ⟨trivial, fun choice answer s' step _ => ?_⟩
  unfold only at step
  split at step
  · exact post choice answer s' ‹_› step
  · cases step

/-- A run with choices in `P` satisfies the postcondition. -/
theorem wpExcept_exec_only {p : ExceptT ε (Prog Op Ans) α} {Q : α → σ → Prop} {E : ε → σ → Prop}
    {r : Except ε α} {choices rest : List χ} (pre : wpExcept (only m P) free p Q E s)
    (all : ∀ x ∈ choices, P x) (run : exec m p.run s choices = some (r, s', rest)) :
    Ends Q E r s' :=
  wp_exec pre ((exec_only all).trans run) fun _ _ _ _ => trivial

end Only

/-! ### Programs that settle -/

/-- Enough choices in `P` lead to the result `a` and the state `s'`. -/
def Settles (m : Machine Op Ans σ χ) (P : χ → Prop) (p : Prog Op Ans α) (s : σ) (a : α) (s' : σ) :
    Prop :=
  ∃ enough, ∀ choices : List χ, (∀ x ∈ choices, P x) → enough ≤ choices.length →
    exec m p s choices = some (a, s', choices.drop enough)

theorem Settles.ret : Settles m P (pure a) s a s := ⟨0, fun _ _ _ => rfl⟩

theorem Settles.perform {o : Op} {answer : Ans o}
    (determined : ∀ choice, P choice → m s o choice = some (answer, s')) :
    Settles m P (Prog.perform o) s answer s' := by
  refine ⟨1, fun choices all length => ?_⟩
  cases choices with
  | nil => cases length
  | cons choice choices =>
    have step := determined choice (all choice List.mem_cons_self)
    simp [Prog.perform, exec, step]

theorem Settles.bind {p : Prog Op Ans α} {f : α → Prog Op Ans β} (first : Settles m P p s a s')
    (next : Settles m P (f a) s' b s'') : Settles m P (p >>= f) s b s'' := by
  obtain ⟨enough, first⟩ := first
  obtain ⟨enough', next⟩ := next
  refine ⟨enough + enough', fun choices all length => ?_⟩
  rw [exec_bind, first choices all (by omega), Option.bind_some]
  have later := next (choices.drop enough) (fun x mem => all x (List.mem_of_mem_drop mem))
    (by rw [List.length_drop]; omega)
  rw [later, List.drop_drop]

/-- The class of choices is not empty, so there is a run. -/
theorem Settles.exists_exec {p : Prog Op Ans α} (settles : Settles m P p s a s') {choice : χ}
    (possible : P choice) :
    ∃ choices rest, (∀ x ∈ choices, P x) ∧ exec m p s choices = some (a, s', rest) := by
  obtain ⟨enough, settles⟩ := settles
  have all : ∀ x ∈ List.replicate enough choice, P x := fun x mem =>
    List.eq_of_mem_replicate mem ▸ possible
  exact ⟨_, _, all, settles _ all (List.length_replicate ▸ Nat.le_refl _)⟩

section Fallible

theorem Settles.run_bind {p : ExceptT ε (Prog Op Ans) α} {f : α → ExceptT ε (Prog Op Ans) β}
    {r : Except ε β} (first : Settles m P p.run s (.ok a) s')
    (next : Settles m P (f a).run s' r s'') : Settles m P (p >>= f).run s r s'' := by
  rw [ExceptT.run_bind]
  exact first.bind next

theorem Settles.always {p : Prog Op Ans α} (settles : Settles m P p s a s') :
    Settles m P (always p : ExceptT ε (Prog Op Ans) α).run s (.ok a) s' :=
  settles.bind .ret

theorem Settles.attempt {wrap : ε' → ε} {p : Prog Op Ans (Except ε' α)}
    (settles : Settles m P p s (.ok a) s') : Settles m P (attempt wrap p).run s (.ok a) s' :=
  settles.bind .ret

end Fallible

end Effect
