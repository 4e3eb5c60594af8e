import Mathlib.Data.List.Basic
import Mathlib.Tactic.Common

/-!
Past-time operators over event histories.

A history is a list of events, newest first, so that the tail of `e :: h` is the
history at the moment `e` happened. `Since keep start h` is the past-time
"since": some event of `h` started it, and every later event kept it. A table
cell that one kind of event sets and another kind clears is `Since` of the two,
which is what `since_of_step` says; the split form `since_iff_split` is the
reading "the latest relevant event is a start". `always_iff` is the rule for what
holds throughout a history.
-/

namespace Past

variable {ε : Type*}

/-- Some event of the history satisfies `start` at its moment, and every event
after it satisfies `keep` at its own. Both see the history they were added to. -/
def Since (keep start : ε → List ε → Prop) : List ε → Prop
  | [] => False
  | e :: h => start e h ∨ keep e h ∧ Since keep start h

variable {keep start : ε → List ε → Prop} {h : List ε} {e : ε}

@[simp] theorem not_since_nil : ¬ Since keep start [] := id

@[simp] theorem since_cons :
    Since keep start (e :: h) ↔ start e h ∨ keep e h ∧ Since keep start h := Iff.rfl

/-- **The cell rule.** A predicate of histories that is false at the beginning and
is set and kept as `start` and `keep` say is `Since keep start`. -/
theorem since_of_step {P : List ε → Prop} (nil : ¬ P [])
    (step : ∀ e h, P (e :: h) ↔ start e h ∨ keep e h ∧ P h) : P h ↔ Since keep start h := by
  induction h with
  | nil => exact ⟨nil, False.elim⟩
  | cons e h ih => rw [step, since_cons, ih]

/-- `Since` through splits of the history: the start happened at `e`, on top of
`earlier`, and each later event kept it at the moment it was added. -/
theorem since_iff_split :
    Since keep start h ↔ ∃ later e earlier, h = later ++ e :: earlier ∧ start e earlier ∧
      ∀ g e' g', later = g ++ e' :: g' → keep e' (g' ++ e :: earlier) := by
  induction h with
  | nil => simp
  | cons x h ih =>
    rw [since_cons, ih]
    constructor
    · rintro (started | ⟨kept, later, e, earlier, rfl, started, keeps⟩)
      · exact ⟨[], x, h, rfl, started, by simp⟩
      · refine ⟨x :: later, e, earlier, rfl, started, fun g e' g' split => ?_⟩
        cases g with
        | nil =>
          obtain ⟨rfl, rfl⟩ := List.cons.inj split
          exact kept
        | cons y g =>
          obtain ⟨rfl, tail⟩ := List.cons.inj split
          exact keeps g e' g' tail
    · rintro ⟨later, e, earlier, split, started, keeps⟩
      cases later with
      | nil =>
        obtain ⟨rfl, rfl⟩ := List.cons.inj split
        exact .inl started
      | cons y later =>
        obtain ⟨rfl, rfl⟩ := List.cons.inj split
        exact .inr ⟨keeps [] _ later rfl, later, e, earlier, rfl, started,
          fun g e' g' tail => keeps (_ :: g) e' g' (by rw [tail]; rfl)⟩

/-- When neither side looks at the history, the split form speaks of the later
events one by one. -/
theorem since_iff_mem {keep start : ε → Prop} :
    Since (fun e _ => keep e) (fun e _ => start e) h ↔
      ∃ later e earlier, h = later ++ e :: earlier ∧ start e ∧ ∀ e' ∈ later, keep e' := by
  rw [since_iff_split]
  constructor
  · rintro ⟨later, e, earlier, rfl, started, keeps⟩
    refine ⟨later, e, earlier, rfl, started, fun e' mem => ?_⟩
    obtain ⟨g, g', split⟩ := List.append_of_mem mem
    exact keeps g e' g' split
  · rintro ⟨later, e, earlier, rfl, started, keeps⟩
    exact ⟨later, e, earlier, rfl, started, fun g e' g' split => keeps e' (by simp [split])⟩

/-- `Since` has its start among the events of the history. -/
theorem Since.exists_start (since : Since keep start h) : ∃ e g, e :: g <:+ h ∧ start e g := by
  obtain ⟨later, e, earlier, rfl, started, -⟩ := since_iff_split.mp since
  exact ⟨e, earlier, List.suffix_append _ _, started⟩

/-- Moments of one history are ordered. -/
theorem suffix_or_suffix {e e' : ε} {g g' : List ε} (one : e :: g <:+ h) (other : e' :: g' <:+ h) :
    (e = e' ∧ g = g') ∨ e :: g <:+ g' ∨ e' :: g' <:+ g := by
  rcases List.suffix_or_suffix_of_suffix one other with older | newer
  · rcases List.suffix_cons_iff.mp older with same | older
    · exact .inl (List.cons.inj same)
    · exact .inr (.inl older)
  · rcases List.suffix_cons_iff.mp newer with same | newer
    · obtain ⟨rfl, rfl⟩ := List.cons.inj same
      exact .inl ⟨rfl, rfl⟩
    · exact .inr (.inr newer)

/-- A weaker `keep` and a weaker `start` hold of more histories. Only the moments
of this history matter. -/
theorem Since.mono {keep' start' : ε → List ε → Prop} (since : Since keep start h)
    (keeps : ∀ e g, e :: g <:+ h → keep e g → keep' e g)
    (starts : ∀ e g, e :: g <:+ h → start e g → start' e g) : Since keep' start' h := by
  induction h with
  | nil => exact since
  | cons x h ih =>
    have lift : ∀ {e g}, e :: g <:+ h → e :: g <:+ x :: h :=
      fun suffix => suffix.trans (List.suffix_cons x h)
    rcases since with started | ⟨kept, since⟩
    · exact .inl (starts x h (List.suffix_refl _) started)
    · exact .inr ⟨keeps x h (List.suffix_refl _) kept,
        ih since (fun e g s => keeps e g (lift s)) (fun e g s => starts e g (lift s))⟩

/-- Only what the conditions say at the moments of this history matters. -/
theorem since_congr {keep' start' : ε → List ε → Prop}
    (keeps : ∀ e g, e :: g <:+ h → (keep e g ↔ keep' e g))
    (starts : ∀ e g, e :: g <:+ h → (start e g ↔ start' e g)) :
    Since keep start h ↔ Since keep' start' h :=
  ⟨fun since => since.mono (fun e g s => (keeps e g s).mp) fun e g s => (starts e g s).mp,
    fun since => since.mono (fun e g s => (keeps e g s).mpr) fun e g s => (starts e g s).mpr⟩

/-- The start may be taken to be the latest one. -/
theorem since_iff_latest :
    Since keep start h ↔ Since (fun e g => keep e g ∧ ¬ start e g) start h := by
  induction h with
  | nil => rfl
  | cons x h ih =>
    rw [since_cons, since_cons, ih]
    by_cases started : start x h
    · simp [started]
    · simp [started]

/-- Conditions that, at every moment of this history, come down to conditions on the
event alone: the split form with these. -/
theorem since_iff_events {keep' start' : ε → Prop}
    (keeps : ∀ e g, e :: g <:+ h → (keep e g ↔ keep' e))
    (starts : ∀ e g, e :: g <:+ h → (start e g ↔ start' e)) :
    Since keep start h ↔
      ∃ later e earlier, h = later ++ e :: earlier ∧ start' e ∧ ∀ e' ∈ later, keep' e' := by
  rw [← since_iff_mem]
  exact since_congr keeps starts

/-- Events that a partial map drops neither start nor give up. -/
theorem since_filterMap {β : Type*} {f : ε → Option β} {keep start : β → Prop} :
    Since (fun b _ => keep b) (fun b _ => start b) (h.filterMap f) ↔
      Since (fun e _ => ∀ b, f e = some b → keep b) (fun e _ => ∃ b, f e = some b ∧ start b) h := by
  induction h with
  | nil => rfl
  | cons x h ih =>
    cases mapped : f x with
    | none => simp [List.filterMap_cons_none mapped, mapped, ih]
    | some b => simp [List.filterMap_cons_some mapped, mapped, ih]

/-- A stretch in which nothing starts. -/
theorem since_append_idle {keep start : ε → Prop} {later : List ε}
    (idle : ∀ e ∈ later, ¬ start e) :
    Since (fun e _ => keep e) (fun e _ => start e) (later ++ h) ↔
      (∀ e ∈ later, keep e) ∧ Since (fun e _ => keep e) (fun e _ => start e) h := by
  induction later with
  | nil => simp
  | cons x later ih =>
    obtain ⟨quiet, idle⟩ := List.forall_mem_cons.mp idle
    rw [List.cons_append, since_cons, ih idle, List.forall_mem_cons, or_iff_right quiet, and_assoc]

/-- **The invariant rule.** When a condition holds at the beginning, and an event keeps it and
does as it should exactly when `keeps` says so, all has gone well iff every event has kept it. -/
theorem always_and_iff {P : List ε → Prop} {does keeps : ε → List ε → Prop} (nil : P [])
    (step : ∀ e g, e :: g <:+ h → P g → (P (e :: g) ∧ does e g ↔ keeps e g)) :
    ((∀ g, g <:+ h → P g) ∧ ∀ e g, e :: g <:+ h → does e g) ↔
      ∀ e g, e :: g <:+ h → keeps e g := by
  constructor
  · rintro ⟨always, well⟩ e g suffix
    have before : P g := always g ((List.suffix_cons e g).trans suffix)
    exact (step e g suffix before).mp ⟨always _ suffix, well e g suffix⟩
  · intro all
    have always : ∀ g, g <:+ h → P g := by
      intro g suffix
      induction g with
      | nil => exact nil
      | cons e g ih =>
        have before : P g := ih ((List.suffix_cons e g).trans suffix)
        exact ((step e g suffix before).mpr (all e g suffix)).1
    refine ⟨always, fun e g suffix => ?_⟩
    have before : P g := always g ((List.suffix_cons e g).trans suffix)
    exact ((step e g suffix before).mpr (all e g suffix)).2

/-- The same when nothing is asked of an event but to keep the condition. -/
theorem always_iff {P : List ε → Prop} {keeps : ε → List ε → Prop} (nil : P [])
    (step : ∀ e g, e :: g <:+ h → P g → (P (e :: g) ↔ keeps e g)) :
    (∀ g, g <:+ h → P g) ↔ ∀ e g, e :: g <:+ h → keeps e g := by
  have both : ((∀ g, g <:+ h → P g) ∧ ∀ e g, e :: g <:+ h → True) ↔
      ∀ e g, e :: g <:+ h → keeps e g :=
    always_and_iff nil fun e g suffix before =>
      (and_iff_left trivial).trans (step e g suffix before)
  exact (and_iff_left fun _ _ _ => trivial).symm.trans both

/-! The moments of a history that is written out. -/

theorem forall_moments_nil {p : ε → List ε → Prop} (e : ε) (g : List ε) (suffix : e :: g <:+ []) :
    p e g := by
  cases List.suffix_nil.mp suffix

theorem forall_moments_cons {p : ε → List ε → Prop} :
    (∀ e' g, e' :: g <:+ e :: h → p e' g) ↔ p e h ∧ ∀ e' g, e' :: g <:+ h → p e' g := by
  constructor
  · intro all
    exact ⟨all e h (List.suffix_refl _), fun e' g suffix => all e' g (suffix.trans (List.suffix_cons e h))⟩
  · rintro ⟨first, rest⟩ e' g suffix
    rcases List.suffix_cons_iff.mp suffix with same | older
    · obtain ⟨rfl, rfl⟩ := List.cons.inj same
      exact first
    · exact rest e' g older

end Past
