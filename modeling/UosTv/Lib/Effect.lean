import Mathlib.Tactic.Common

/-!
Programs that issue operations, run against an environment.

A `Prog` returns a value or issues an operation and goes on with its answer. A `Machine`
says what an operation does to the state and which answer it gets; the part of this that
the program does not control is a choice of the environment, so a run is determined by the
list of choices. `exec` is the run to the end, `trace` what is issued on the way.

A `Contract` relies on answers of the environment and guarantees something about every
operation that is issued. `wp` is the weakest precondition under a contract. Its rules
follow the program (`wp_bind`, `wp_forEach`); `wp_exec`, `wp_trace` and `wp_states` say what
it means for runs. `may` is its dual, for a run that the environment can choose
(`exists_exec_of_may`).
-/

namespace Effect

/-- Programs with operations `Op`, of which `o` is answered by an `Ans o`. -/
inductive Prog (Op : Type) (Ans : Op → Type) (α : Type) where
  | ret (a : α)
  | op (o : Op) (next : Ans o → Prog Op Ans α)

namespace Prog

variable {Op : Type} {Ans : Op → Type} {α β : Type}

def bind : Prog Op Ans α → (α → Prog Op Ans β) → Prog Op Ans β
  | ret a, f => f a
  | op o next, f => op o fun answer => (next answer).bind f

instance : Monad (Prog Op Ans) where
  pure := ret
  bind := bind

/-- Issues one operation and returns its answer. -/
def perform (o : Op) : Prog Op Ans (Ans o) := op o ret

/-- A loop over a list. -/
def forEach : List β → (β → Prog Op Ans Unit) → Prog Op Ans Unit
  | [], _ => ret ()
  | b :: bs, body => do
    body b
    forEach bs body

end Prog

/-- What an operation does in a state under a choice of the environment, if the choice is
possible there. -/
abbrev Machine (Op : Type) (Ans : Op → Type) (σ χ : Type) :=
  σ → (o : Op) → χ → Option (Ans o × σ)

/-- What is relied on of the answers and guaranteed of the operations. -/
structure Contract (Op : Type) (Ans : Op → Type) (σ : Type) where
  rely : σ → (o : Op) → Ans o → Prop
  guarantee : σ → Op → Prop

/-- An operation that has been issued in a state, with its answer if it got one. -/
structure Event (Op : Type) (Ans : Op → Type) (σ : Type) where
  before : σ
  op : Op
  answer : Option (Ans op)

variable {Op : Type} {Ans : Op → Type} {σ χ α β : Type} (m : Machine Op Ans σ χ)
  (c : Contract Op Ans σ)

/-- The answer is one that the contract relies on. -/
def Event.Relied (e : Event Op Ans σ) : Prop := ∀ answer ∈ e.answer, c.rely e.before e.op answer

/-- The run to the end: the result, the last state and the choices left over. -/
def exec : Prog Op Ans α → σ → List χ → Option (α × σ × List χ)
  | .ret a, s, choices => some (a, s, choices)
  | .op _ _, _, [] => none
  | .op o next, s, choice :: choices =>
    match m s o choice with
    | none => none
    | some (answer, s') => exec (next answer) s' choices

/-- What is issued, also in a run that does not get to the end. -/
def trace : Prog Op Ans α → σ → List χ → List (Event Op Ans σ)
  | .ret _, _, _ => []
  | .op o _, s, [] => [⟨s, o, none⟩]
  | .op o next, s, choice :: choices =>
    match m s o choice with
    | none => [⟨s, o, none⟩]
    | some (answer, s') => ⟨s, o, some answer⟩ :: trace (next answer) s' choices

/-- The states that a run goes through, with the one it starts in. -/
def states : Prog Op Ans α → σ → List χ → List σ
  | .ret _, s, _ => [s]
  | .op _ _, s, [] => [s]
  | .op o next, s, choice :: choices =>
    match m s o choice with
    | none => [s]
    | some (answer, s') => s :: states (next answer) s' choices

/-- The weakest precondition: every operation is as guaranteed, and after answers as relied
on the result satisfies `Q`. -/
def wp : Prog Op Ans α → (α → σ → Prop) → σ → Prop
  | .ret a, Q, s => Q a s
  | .op o next, Q, s => c.guarantee s o ∧
      ∀ choice answer s', m s o choice = some (answer, s') → c.rely s o answer →
        wp (next answer) Q s'

/-- The environment may answer as relied on in such a way that the result satisfies `Q`. -/
def may : Prog Op Ans α → (α → σ → Prop) → σ → Prop
  | .ret a, Q, s => Q a s
  | .op o next, Q, s => ∃ choice answer s', m s o choice = some (answer, s') ∧
      c.rely s o answer ∧ may (next answer) Q s'

/-- Every operation that the program can issue satisfies `G`. -/
def Issues (G : Op → Prop) : Prog Op Ans α → Prop
  | .ret _ => True
  | .op o next => G o ∧ ∀ answer, Issues G (next answer)

variable {m c}

/-! ### Rules of the weakest precondition -/

@[simp] theorem wp_pure (a : α) (Q : α → σ → Prop) (s : σ) :
    wp m c (pure a : Prog Op Ans α) Q s ↔ Q a s := Iff.rfl

@[simp] theorem wp_bind (p : Prog Op Ans α) (f : α → Prog Op Ans β) (Q : β → σ → Prop) (s : σ) :
    wp m c (p >>= f) Q s ↔ wp m c p (fun a s' => wp m c (f a) Q s') s := by
  change wp m c (p.bind f) Q s ↔ _
  induction p generalizing s with
  | ret a => rfl
  | op o next ih => simp only [Prog.bind, wp, ih]

/-- An operation in which the environment has no choice. -/
theorem wp_determined [Inhabited χ] {o : Op} {answer : Ans o} {s s' : σ} {Q : Ans o → σ → Prop}
    (answers : ∀ choice, m s o choice = some (answer, s')) (relied : c.rely s o answer) :
    wp m c (Prog.perform o) Q s ↔ c.guarantee s o ∧ Q answer s' := by
  refine and_congr_right fun _ => ⟨fun all => ?_, fun post => ?_⟩
  · exact all default answer s' (answers default) relied
  · rintro choice answer' s'' done -
    rw [answers choice] at done
    cases done
    exact post

theorem wp_mono {p : Prog Op Ans α} {Q Q' : α → σ → Prop} {s : σ} (pre : wp m c p Q s)
    (weaker : ∀ a s', Q a s' → Q' a s') : wp m c p Q' s := by
  induction p generalizing s with
  | ret a => exact weaker a s pre
  | op o next ih =>
    refine ⟨pre.1, fun choice answer s' done relied => ?_⟩
    exact ih answer (pre.2 choice answer s' done relied)

/-- Another contract, which relies on more of the answers. -/
theorem wp_weaken {c' : Contract Op Ans σ} {p : Prog Op Ans α} {Q : α → σ → Prop} {s : σ}
    (relies : ∀ s o answer, c'.rely s o answer → c.rely s o answer)
    (guarantees : ∀ s o, c.guarantee s o → c'.guarantee s o) (pre : wp m c p Q s) :
    wp m c' p Q s := by
  induction p generalizing s with
  | ret a => exact pre
  | op o next ih =>
    apply And.intro (guarantees s o pre.1)
    intro choice answer s' done relied
    exact ih answer (pre.2 choice answer s' done (relies s o answer relied))

theorem wp_congr {p : Prog Op Ans α} {Q Q' : α → σ → Prop} {s : σ}
    (same : ∀ a s', Q a s' ↔ Q' a s') : wp m c p Q s ↔ wp m c p Q' s :=
  ⟨fun pre => wp_mono pre fun a s' => (same a s').mp,
    fun pre => wp_mono pre fun a s' => (same a s').mpr⟩

/-- A loop keeps an invariant that speaks of the elements still to come. -/
theorem wp_forEach {body : β → Prog Op Ans Unit} (I : List β → σ → Prop)
    (step : ∀ b bs s, I (b :: bs) s → wp m c (body b) (fun _ => I bs) s) {bs : List β} {s : σ}
    (start : I bs s) : wp m c (Prog.forEach bs body) (fun _ => I []) s := by
  induction bs generalizing s with
  | nil => exact start
  | cons b bs ih =>
    rw [Prog.forEach, wp_bind]
    exact wp_mono (step b bs s start) fun _ s' => ih

/-! ### Rules of the runs that can be chosen -/

@[simp] theorem may_pure (a : α) (Q : α → σ → Prop) (s : σ) :
    may m c (pure a : Prog Op Ans α) Q s ↔ Q a s := Iff.rfl

@[simp] theorem may_bind (p : Prog Op Ans α) (f : α → Prog Op Ans β) (Q : β → σ → Prop) (s : σ) :
    may m c (p >>= f) Q s ↔ may m c p (fun a s' => may m c (f a) Q s') s := by
  change may m c (p.bind f) Q s ↔ _
  induction p generalizing s with
  | ret a => rfl
  | op o next ih => simp only [Prog.bind, may, ih]

theorem may_mono {p : Prog Op Ans α} {Q Q' : α → σ → Prop} {s : σ} (can : may m c p Q s)
    (weaker : ∀ a s', Q a s' → Q' a s') : may m c p Q' s := by
  induction p generalizing s with
  | ret a => exact weaker a s can
  | op o next ih =>
    obtain ⟨choice, answer, s', done, relied, can⟩ := can
    exact ⟨choice, answer, s', done, relied, ih answer can⟩

theorem may_congr {p : Prog Op Ans α} {Q Q' : α → σ → Prop} {s : σ}
    (same : ∀ a s', Q a s' ↔ Q' a s') : may m c p Q s ↔ may m c p Q' s :=
  ⟨fun can => may_mono can fun a s' => (same a s').mp,
    fun can => may_mono can fun a s' => (same a s').mpr⟩

/-! ### Runs -/

theorem exec_bind (p : Prog Op Ans α) (f : α → Prog Op Ans β) (s : σ) (choices : List χ) :
    exec m (p >>= f) s choices =
      (exec m p s choices).bind fun out => exec m (f out.1) out.2.1 out.2.2 := by
  change exec m (p.bind f) s choices = _
  induction p generalizing s choices with
  | ret a => rfl
  | op o next ih =>
    cases choices with
    | nil => rfl
    | cons choice choices =>
      simp only [Prog.bind, exec]
      cases m s o choice with
      | none => rfl
      | some out => exact ih out.1 out.2 choices

/-- The run of one operation. -/
theorem exec_perform {o : Op} {s s' : σ} {choices rest : List χ} {answer : Ans o}
    (run : exec m (Prog.perform o) s choices = some (answer, s', rest)) :
    ∃ choice, choices = choice :: rest ∧ m s o choice = some (answer, s') := by
  cases choices with
  | nil => cases run
  | cons choice choices =>
    simp only [Prog.perform, exec] at run
    cases done : m s o choice with
    | none => rw [done] at run; cases run
    | some out =>
      rw [done] at run
      cases run
      exact ⟨choice, rfl, done⟩

theorem trace_bind {p : Prog Op Ans α} {f : α → Prog Op Ans β} {s s' : σ} {a : α}
    {choices rest : List χ} (run : exec m p s choices = some (a, s', rest)) :
    trace m (p >>= f) s choices = trace m p s choices ++ trace m (f a) s' rest := by
  change trace m (p.bind f) s choices = _
  induction p generalizing s choices with
  | ret a => cases run; rfl
  | op o next ih =>
    cases choices with
    | nil => cases run
    | cons choice choices =>
      simp only [exec] at run
      simp only [Prog.bind, trace]
      cases done : m s o choice with
      | none => rw [done] at run; cases run
      | some out =>
        rw [done] at run
        exact congrArg _ (ih out.1 run)

/-- The postcondition holds at the end of every run with answers as relied on. -/
theorem wp_exec {p : Prog Op Ans α} {Q : α → σ → Prop} {s s' : σ} {a : α} {choices rest : List χ}
    (pre : wp m c p Q s) (run : exec m p s choices = some (a, s', rest))
    (relied : ∀ e ∈ trace m p s choices, e.Relied c) : Q a s' := by
  induction p generalizing s choices with
  | ret a => cases run; exact pre
  | op o next ih =>
    cases choices with
    | nil => cases run
    | cons choice choices =>
      simp only [exec] at run
      simp only [trace] at relied
      cases done : m s o choice with
      | none => rw [done] at run; cases run
      | some out =>
        rw [done] at run relied
        obtain ⟨here, relied⟩ := List.forall_mem_cons.mp relied
        exact ih out.1 (pre.2 choice out.1 out.2 done (here out.1 rfl)) run relied

/-- What every operation preserves holds at the end of a run when it holds at the start. -/
theorem exec_invariant {P : σ → Prop}
    (keeps : ∀ s o choice answer s', m s o choice = some (answer, s') → P s → P s')
    {p : Prog Op Ans α} {s s' : σ} {a : α} {choices rest : List χ}
    (run : exec m p s choices = some (a, s', rest)) (holds : P s) : P s' := by
  induction p generalizing s choices with
  | ret a => cases run; exact holds
  | op o next ih =>
    cases choices with
    | nil => cases run
    | cons choice choices =>
      simp only [exec] at run
      cases done : m s o choice with
      | none => rw [done] at run; cases run
      | some out =>
        rw [done] at run
        exact ih out.1 run (keeps s o choice out.1 out.2 done holds)

/-- Every operation of every run with answers as relied on is as guaranteed. -/
theorem wp_trace {p : Prog Op Ans α} {Q : α → σ → Prop} {s : σ} {choices : List χ}
    (pre : wp m c p Q s) (relied : ∀ e ∈ trace m p s choices, e.Relied c) :
    ∀ e ∈ trace m p s choices, c.guarantee e.before e.op := by
  induction p generalizing s choices with
  | ret a => intro e mem; cases mem
  | op o next ih =>
    cases choices with
    | nil =>
      intro e mem
      obtain rfl := List.mem_singleton.mp mem
      exact pre.1
    | cons choice choices =>
      simp only [trace] at relied ⊢
      cases done : m s o choice with
      | none =>
        intro e mem
        obtain rfl := List.mem_singleton.mp mem
        exact pre.1
      | some out =>
        simp only [done] at relied ⊢
        obtain ⟨here, relied⟩ := List.forall_mem_cons.mp relied
        refine List.forall_mem_cons.mpr ⟨pre.1, ?_⟩
        exact ih out.1 (pre.2 choice out.1 out.2 done (here out.1 rfl)) relied

/-- When all runs issue operations as guaranteed, the weakest precondition holds. -/
theorem wp_of_trace {p : Prog Op Ans α} {s : σ}
    (all : ∀ choices : List χ, (∀ e ∈ trace m p s choices, e.Relied c) →
      ∀ e ∈ trace m p s choices, c.guarantee e.before e.op) : wp m c p (fun _ _ => True) s := by
  induction p generalizing s with
  | ret a => trivial
  | op o next ih =>
    refine ⟨?_, fun choice answer s' done relied => ih answer fun choices rest e mem => ?_⟩
    · refine all [] ?_ ⟨s, o, none⟩ (List.mem_singleton.mpr rfl)
      intro e mem
      obtain rfl := List.mem_singleton.mp mem
      rintro answer ⟨⟩
    · have here := all (choice :: choices)
      simp only [trace, done] at here
      refine here (List.forall_mem_cons.mpr ⟨?_, rest⟩) e (List.mem_cons_of_mem _ mem)
      rintro answer ⟨⟩
      exact relied

/-- A run that can be chosen is a run. -/
theorem exists_exec_of_may {p : Prog Op Ans α} {Q : α → σ → Prop} {s : σ} (can : may m c p Q s) :
    ∃ choices a s', exec m p s choices = some (a, s', []) ∧ Q a s' ∧
      ∀ e ∈ trace m p s choices, e.Relied c := by
  induction p generalizing s with
  | ret a => exact ⟨[], a, s, rfl, can, by simp [trace]⟩
  | op o next ih =>
    obtain ⟨choice, answer, s', done, relied, can⟩ := can
    obtain ⟨choices, a, s'', run, post, rest⟩ := ih answer can
    refine ⟨choice :: choices, a, s'', ?_, post, ?_⟩
    · simp only [exec, done]
      exact run
    · simp only [trace, done]
      refine List.forall_mem_cons.mpr ⟨?_, rest⟩
      rintro answer ⟨⟩
      exact relied

/-- What is guaranteed in every state in which something is issued, and holds at the end,
holds in every state. -/
theorem wp_states {P : σ → Prop} (keeps : ∀ s o, c.guarantee s o → P s) {p : Prog Op Ans α} {s : σ}
    (pre : wp m c p (fun _ => P) s) {choices : List χ}
    (relied : ∀ e ∈ trace m p s choices, e.Relied c) : ∀ s' ∈ states m p s choices, P s' := by
  induction p generalizing s choices with
  | ret a =>
    intro s' mem
    obtain rfl := List.mem_singleton.mp mem
    exact pre
  | op o next ih =>
    cases choices with
    | nil =>
      intro s' mem
      obtain rfl := List.mem_singleton.mp mem
      exact keeps s' o pre.1
    | cons choice choices =>
      simp only [trace] at relied
      simp only [states]
      cases done : m s o choice with
      | none =>
        intro s' mem
        obtain rfl := List.mem_singleton.mp mem
        exact keeps s' o pre.1
      | some out =>
        simp only [done] at relied ⊢
        obtain ⟨here, relied⟩ := List.forall_mem_cons.mp relied
        refine List.forall_mem_cons.mpr ⟨keeps s o pre.1, ?_⟩
        exact ih out.1 (pre.2 choice out.1 out.2 done (here out.1 rfl)) relied

/-- The state after an operation that has been answered is one that the run goes through. -/
theorem exists_mem_states {p : Prog Op Ans α} {s : σ} {choices : List χ} {e : Event Op Ans σ}
    (mem : e ∈ trace m p s choices) {answer : Ans e.op} (answered : e.answer = some answer) :
    ∃ choice s', m e.before e.op choice = some (answer, s') ∧ s' ∈ states m p s choices := by
  have start : ∀ (p : Prog Op Ans α) (s : σ) (choices : List χ), s ∈ states m p s choices := by
    intro p s choices
    cases p with
    | ret a => exact List.mem_cons_self
    | op o next =>
      cases choices with
      | nil => exact List.mem_cons_self
      | cons choice choices =>
        simp only [states]
        cases m s o choice <;> exact List.mem_cons_self
  induction p generalizing s choices with
  | ret a => cases mem
  | op o next ih =>
    cases choices with
    | nil =>
      obtain rfl := List.mem_singleton.mp mem
      cases answered
    | cons choice choices =>
      simp only [trace] at mem
      simp only [states]
      cases done : m s o choice with
      | none =>
        rw [done] at mem
        obtain rfl := List.mem_singleton.mp mem
        cases answered
      | some out =>
        simp only [done] at mem ⊢
        rcases List.mem_cons.mp mem with rfl | mem
        · cases answered
          exact ⟨choice, out.2, done, List.mem_cons_of_mem _ (start _ _ _)⟩
        · obtain ⟨choice', s', done', mem'⟩ := ih out.1 mem
          exact ⟨choice', s', done', List.mem_cons_of_mem _ mem'⟩

/-! ### The operations of a program -/

section Issues

variable {G : Op → Prop}

theorem Issues.bind {p : Prog Op Ans α} {f : α → Prog Op Ans β} (first : Issues G p)
    (next : ∀ a, Issues G (f a)) : Issues G (p >>= f) := by
  change Issues G (p.bind f)
  induction p with
  | ret a => exact next a
  | op o tail ih => exact ⟨first.1, fun answer => ih answer (first.2 answer)⟩

theorem Issues.trace {p : Prog Op Ans α} (issues : Issues G p) {s : σ} {choices : List χ} :
    ∀ e ∈ trace m p s choices, G e.op := by
  induction p generalizing s choices with
  | ret a => intro e mem; cases mem
  | op o next ih =>
    cases choices with
    | nil =>
      intro e mem
      obtain rfl := List.mem_singleton.mp mem
      exact issues.1
    | cons choice choices =>
      simp only [Effect.trace]
      cases m s o choice with
      | none =>
        intro e mem
        obtain rfl := List.mem_singleton.mp mem
        exact issues.1
      | some out => exact List.forall_mem_cons.mpr ⟨issues.1, ih out.1 (issues.2 out.1)⟩

theorem Issues.forEach {body : β → Prog Op Ans Unit} (all : ∀ b, Issues G (body b))
    (bs : List β) : Issues G (Prog.forEach bs body) := by
  induction bs with
  | nil => trivial
  | cons b bs ih => exact (all b).bind fun _ => ih

/-- What every operation that the program can issue keeps holds at the end. -/
theorem Issues.wp {I : σ → Prop} {p : Prog Op Ans α} (issues : Issues G p)
    (allows : ∀ s o, G o → I s → c.guarantee s o)
    (keeps : ∀ s o choice answer s', G o → c.rely s o answer →
      m s o choice = some (answer, s') → I s → I s')
    {s : σ} (holds : I s) : wp m c p (fun _ => I) s := by
  induction p generalizing s with
  | ret a => exact holds
  | op o next ih =>
    apply And.intro (allows s o issues.1 holds)
    intro choice answer s' done relied
    exact ih answer (issues.2 answer) (keeps s o choice answer s' issues.1 relied done holds)

/-- Runs from related states have the same results, when every operation that the program can
issue is answered alike in them. -/
theorem Issues.exec_related {R : σ → σ → Prop} {p : Prog Op Ans α} (issues : Issues G p)
    (alike : ∀ s t o choice, G o → R s t →
      Option.Rel (fun out out' => out.1 = out'.1 ∧ R out.2 out'.2) (m s o choice) (m t o choice))
    {s t : σ} (related : R s t) (choices : List χ) :
    (exec m p s choices).map (·.1) = (exec m p t choices).map (·.1) := by
  induction p generalizing s t choices with
  | ret a => rfl
  | op o next ih =>
    cases choices with
    | nil => rfl
    | cons choice choices =>
      have here := alike s t o choice issues.1 related
      simp only [exec]
      cases left : m s o choice with
      | none =>
        rw [left] at here
        cases right : m t o choice with
        | none => rfl
        | some out' =>
          rw [right] at here
          cases here
      | some out =>
        rw [left] at here
        cases right : m t o choice with
        | none =>
          rw [right] at here
          cases here
        | some out' =>
          rw [right] at here
          obtain ⟨answer, s'⟩ := out
          obtain ⟨answer', t'⟩ := out'
          obtain ⟨rfl, related⟩ : answer = answer' ∧ R s' t' := by
            cases here with
            | some both => exact both
          exact ih answer (issues.2 answer) related choices

end Issues

section Stable

variable {P : σ → Prop} (keeps : ∀ s o choice answer s', c.guarantee s o →
  m s o choice = some (answer, s') → P s → P s')
include keeps

/-- What the guaranteed operations preserve holds throughout when it holds at the start. -/
theorem trace_invariant {p : Prog Op Ans α} {s : σ} {choices : List χ}
    (guaranteed : ∀ e ∈ trace m p s choices, c.guarantee e.before e.op) (holds : P s) :
    ∀ e ∈ trace m p s choices, P e.before := by
  induction p generalizing s choices with
  | ret a => intro e mem; cases mem
  | op o next ih =>
    cases choices with
    | nil =>
      intro e mem
      obtain rfl := List.mem_singleton.mp mem
      exact holds
    | cons choice choices =>
      simp only [trace] at guaranteed ⊢
      cases done : m s o choice with
      | none =>
        intro e mem
        obtain rfl := List.mem_singleton.mp mem
        exact holds
      | some out =>
        simp only [done] at guaranteed ⊢
        obtain ⟨here, guaranteed⟩ := List.forall_mem_cons.mp guaranteed
        refine List.forall_mem_cons.mpr ⟨holds, ih out.1 guaranteed ?_⟩
        exact keeps s o choice out.1 out.2 here done holds

/-- What the guaranteed operations preserve, once it holds, holds at all later operations. -/
theorem trace_pairwise {p : Prog Op Ans α} {s : σ} {choices : List χ}
    (guaranteed : ∀ e ∈ trace m p s choices, c.guarantee e.before e.op) :
    (trace m p s choices).Pairwise fun e e' => P e.before → P e'.before := by
  induction p generalizing s choices with
  | ret a => exact .nil
  | op o next ih =>
    cases choices with
    | nil => exact List.pairwise_singleton _ _
    | cons choice choices =>
      simp only [trace] at guaranteed ⊢
      cases done : m s o choice with
      | none => exact List.pairwise_singleton _ _
      | some out =>
        simp only [done] at guaranteed ⊢
        obtain ⟨here, guaranteed⟩ := List.forall_mem_cons.mp guaranteed
        refine List.pairwise_cons.mpr ⟨fun e' mem holds => ?_, ih out.1 guaranteed⟩
        exact trace_invariant keeps guaranteed (keeps s o choice out.1 out.2 here done holds) e' mem

end Stable

end Effect
