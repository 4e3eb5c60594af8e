import Mathlib.Data.List.Basic
import Mathlib.Order.Basic

/-!
A loop that takes readings and reports the value it makes of them when that has changed.

The value in force is that of the newest reading (`current_watch`), and the last one that was
reported, if any (`head_past`). When the readings and the values only grow, each value is greater
than the one before it (`past_decreasing`).
-/

namespace Watch

variable {α β : Type*}

/-- The value in force, and the reports, the last first, each with its reading. -/
structure Watcher (α β : Type*) where
  current : β
  reports : List (β × α)

section Watching

variable [DecidableEq β] (f : α → β) (first : β)

/-- A reading is reported if its value differs from the one in force. -/
def Watcher.see (w : Watcher α β) (a : α) : Watcher α β :=
  if f a ≠ w.current then ⟨f a, (f a, a) :: w.reports⟩ else w

/-- After readings, the newest first. -/
def watch : List α → Watcher α β
  | [] => ⟨first, []⟩
  | a :: earlier => (watch earlier).see f a

/-- The values that have been in force, the last first. -/
def past (readings : List α) : List β := (watch f first readings).reports.map Prod.fst ++ [first]

variable {f first} {w : Watcher α β} {a : α} {readings : List α}

theorem see_of_ne (changed : f a ≠ w.current) : w.see f a = ⟨f a, (f a, a) :: w.reports⟩ :=
  if_pos changed

theorem see_of_eq (same : f a = w.current) : w.see f a = w := if_neg (not_not.mpr same)

theorem current_see : (w.see f a).current = f a := by
  by_cases same : f a = w.current
  · rw [see_of_eq same, same]
  · rw [see_of_ne same]

theorem current_watch :
    (watch f first readings).current = (readings.head?.map f).getD first := by
  cases readings with
  | nil => rfl
  | cons a earlier => exact current_see

/-- A report is about one of the readings. -/
theorem mem_reports {e : β × α} (mem : e ∈ (watch f first readings).reports) :
    e.1 = f e.2 ∧ e.2 ∈ readings := by
  induction readings with
  | nil => cases mem
  | cons a earlier ih =>
    rw [watch] at mem
    by_cases same : f a = (watch f first earlier).current
    · rw [see_of_eq same] at mem
      exact ⟨(ih mem).1, List.mem_cons_of_mem _ (ih mem).2⟩
    · rw [see_of_ne same] at mem
      rcases List.mem_cons.mp mem with rfl | before
      · exact ⟨rfl, List.mem_cons_self⟩
      · exact ⟨(ih before).1, List.mem_cons_of_mem _ (ih before).2⟩

theorem past_cons_of_ne (changed : f a ≠ (watch f first readings).current) :
    past f first (a :: readings) = f a :: past f first readings := by
  rw [past, watch, see_of_ne changed]
  rfl

theorem past_cons_of_eq (same : f a = (watch f first readings).current) :
    past f first (a :: readings) = past f first readings := by
  rw [past, watch, see_of_eq same]
  rfl

/-- The last value is the one in force. -/
theorem head_past : ∃ before,
    past f first readings = (watch f first readings).current :: before := by
  induction readings with
  | nil => exact ⟨[], rfl⟩
  | cons a earlier ih =>
    by_cases same : f a = (watch f first earlier).current
    · rw [past_cons_of_eq same, watch, see_of_eq same]
      exact ih
    · rw [past_cons_of_ne same, watch, current_see]
      exact ⟨_, rfl⟩

/-- **Growing readings.** When later readings have no smaller values, the values in force only
grow. -/
theorem past_decreasing [PartialOrder β] {later : α → α → Prop} (mono : ∀ a b, later a b → f b ≤ f a)
    (least : ∀ a, first ≤ f a) (growing : readings.Pairwise later) :
    (past f first readings).Pairwise (· > ·) := by
  induction readings with
  | nil => exact List.pairwise_singleton _ _
  | cons a earlier ih =>
    obtain ⟨newest, growing⟩ := List.pairwise_cons.mp growing
    by_cases same : f a = (watch f first earlier).current
    · rw [past_cons_of_eq same]
      exact ih growing
    obtain ⟨before, values⟩ : ∃ before,
        past f first earlier = (watch f first earlier).current :: before := head_past
    have le : (watch f first earlier).current ≤ f a := by
      rw [current_watch]
      cases earlier with
      | nil => exact least a
      | cons b earlier => exact mono a b (newest b List.mem_cons_self)
    have lt := lt_of_le_of_ne le (Ne.symm same)
    have decreasing := ih growing
    rw [past_cons_of_ne same]
    refine List.pairwise_cons.mpr ⟨fun b mem => ?_, decreasing⟩
    rw [values] at mem decreasing
    rcases List.mem_cons.mp mem with rfl | mem
    · exact lt
    · exact ((List.pairwise_cons.mp decreasing).1 b mem).trans lt

end Watching

end Watch
