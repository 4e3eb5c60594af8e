import UosTv.Lib.Effect

/-!
Runs that remember what has been issued.

`recording` is the machine that keeps beside the state the events so far, the newest first. A
guarantee under it may speak of the whole past, and it holds of every operation of a run of the
machine itself, where the past is the trace up to that operation (`wp_recording_trace`).
-/

namespace Effect

variable {Op : Type} {Ans : Op → Type} {σ χ α : Type} {m : Machine Op Ans σ χ}

/-- A state, and what has been issued on the way to it. -/
structure Recorded (Op : Type) (Ans : Op → Type) (σ : Type) where
  state : σ
  past : List (Event Op Ans σ)

/-- The machine that also records what is issued. -/
def recording (m : Machine Op Ans σ χ) : Machine Op Ans (Recorded Op Ans σ) χ := fun s o choice =>
  (m s.state o choice).map fun out => (out.1, ⟨out.2, ⟨s.state, o, some out.1⟩ :: s.past⟩)

theorem recording_eq_some {s s' : Recorded Op Ans σ} {o : Op} {choice : χ} {answer : Ans o} :
    recording m s o choice = some (answer, s') ↔ ∃ state, m s.state o choice = some (answer, state) ∧
      s' = ⟨state, ⟨s.state, o, some answer⟩ :: s.past⟩ := by
  constructor
  · intro recorded
    obtain ⟨out, done, same⟩ := Option.map_eq_some_iff.mp recorded
    cases same
    exact ⟨out.2, done, rfl⟩
  · rintro ⟨state, done, rfl⟩
    rw [recording, done]
    rfl

/-- Relies on what `rely` says of the state alone; guarantees something about the past too. -/
def remembering (rely : σ → (o : Op) → Ans o → Prop)
    (guarantee : Recorded Op Ans σ → Op → Prop) : Contract Op Ans (Recorded Op Ans σ) where
  rely s o answer := rely s.state o answer
  guarantee := guarantee

variable {c : Contract Op Ans σ} {G : Recorded Op Ans σ → Op → Prop}

theorem wp_recording_perform {o : Op} {Q : Ans o → Recorded Op Ans σ → Prop}
    {s : Recorded Op Ans σ} (allowed : G s o)
    (post : ∀ choice answer state, m s.state o choice = some (answer, state) →
      c.rely s.state o answer → Q answer ⟨state, ⟨s.state, o, some answer⟩ :: s.past⟩) :
    wp (recording m) (remembering c.rely G) (Prog.perform o) Q s := by
  apply And.intro allowed
  intro choice answer s' recorded relied
  obtain ⟨state, done, rfl⟩ := recording_eq_some.mp recorded
  exact post choice answer state done relied

/-- Every operation of a run is as guaranteed after what has been issued before it. -/
theorem wp_recording_trace {p : Prog Op Ans α} {Q : α → Recorded Op Ans σ → Prop} {s : σ}
    {past before after : List (Event Op Ans σ)} {e : Event Op Ans σ} {choices : List χ}
    (pre : wp (recording m) (remembering c.rely G) p Q ⟨s, past⟩)
    (relied : ∀ e ∈ trace m p s choices, e.Relied c)
    (split : trace m p s choices = before ++ e :: after) :
    G ⟨e.before, before.reverse ++ past⟩ e.op := by
  induction p generalizing s past choices before with
  | ret a => simp [trace] at split
  | op o next ih =>
    cases choices with
    | nil =>
      cases before with
      | nil =>
        obtain ⟨rfl, -⟩ := List.cons.inj split
        exact pre.1
      | cons e' before => simp [trace] at split
    | cons choice choices =>
      simp only [trace] at relied split
      cases done : m s o choice with
      | none =>
        rw [done] at split
        cases before with
        | nil =>
          obtain ⟨rfl, -⟩ := List.cons.inj split
          exact pre.1
        | cons e' before => simp at split
      | some out =>
        simp only [done] at relied split
        obtain ⟨here, relied⟩ := List.forall_mem_cons.mp relied
        cases before with
        | nil =>
          obtain ⟨rfl, -⟩ := List.cons.inj split
          exact pre.1
        | cons e' before =>
          obtain ⟨rfl, rest⟩ := List.cons.inj split
          have recorded : recording m ⟨s, past⟩ o choice =
              some (out.1, ⟨out.2, ⟨s, o, some out.1⟩ :: past⟩) :=
            recording_eq_some.mpr ⟨out.2, done, rfl⟩
          have later := ih out.1 (pre.2 choice out.1 _ recorded (here out.1 rfl)) relied rest
          rwa [List.reverse_cons, List.append_assoc]

end Effect
