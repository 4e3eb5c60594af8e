import Mathlib.Data.List.Chain
import Mathlib.Order.PiLex
import UosTv.UpdateVerify.Bundle

/-!
The order behind `is_downgrade`, and chains of updates.

A version stands for the sequence of its numbers, with zeros after the last. Among versions
that have a number `is_downgrade` is the lexicographic order of these sequences
(`isDowngrade_iff`), so it is transitive there. A version without a number is accepted after
every version and before every version: a chain that passes through one can lead back to an
older release (`nightly_leads_back`), and a chain that does not never does
(`not_isDowngrade_of_chain`).
-/

namespace UpdateVerify

/-- The number at a position, zero after the last. -/
def component (numbers : List Nat) (i : Nat) : Nat := numbers[i]?.getD 0

/-- The release that a version stands for. -/
def release (version : String) : Lex (Nat → Nat) := toLex (component (parse version))

/-- A version without a number. -/
def Unnumbered (version : String) : Prop := parse version = []

instance (version : String) : Decidable (Unnumbered version) :=
  inferInstanceAs (Decidable (parse version = []))

/-! ### One comparison -/

theorem component_of_length_le {numbers : List Nat} {i : Nat} (past : numbers.length ≤ i) :
    component numbers i = 0 := by
  simp [component, past]

/-- A release is older if its number is smaller at the first position where the two differ. -/
theorem release_lt_iff {newer current : String} :
    release newer < release current ↔
      ∃ i, (∀ j, j < i → component (parse newer) j = component (parse current) j) ∧
        component (parse newer) i < component (parse current) i :=
  Iff.rfl

/-- The loop finds the first position where the two differ, among those that are left. -/
theorem isDowngradeAt_range'_iff {current newer : List Nat} {start count : Nat} :
    isDowngradeAt current newer (List.range' start count) = true ↔
      ∃ i, start ≤ i ∧ i < start + count ∧
        (∀ j, start ≤ j → j < i → component newer j = component current j) ∧
        component newer i < component current i := by
  induction count generalizing start with
  | zero =>
    constructor
    · simp [isDowngradeAt]
    · rintro ⟨i, low, high, -⟩
      omega
  | succ count ih =>
    rw [List.range'_succ, isDowngradeAt]
    change (if component newer start < component current start then true
      else if component current start < component newer start then false else _) = true ↔ _
    rcases lt_trichotomy (component newer start) (component current start) with
      less | same | greater
    · rw [if_pos less]
      refine iff_of_true rfl ⟨start, le_refl _, by omega, ?_, less⟩
      intro j low high
      omega
    · rw [if_neg (by omega), if_neg (by omega), ih]
      constructor
      · rintro ⟨i, low, high, before, less⟩
        refine ⟨i, by omega, by omega, ?_, less⟩
        intro j from_start below
        rcases from_start.eq_or_lt with rfl | later
        · exact same
        · exact before j later below
      · rintro ⟨i, low, high, before, less⟩
        have later : start ≠ i := by
          rintro rfl
          omega
        refine ⟨i, by omega, by omega, ?_, less⟩
        intro j from_next below
        exact before j (by omega) below
    · rw [if_neg (by omega), if_pos greater]
      apply iff_of_false Bool.false_ne_true
      rintro ⟨i, low, -, before, less⟩
      rcases low.eq_or_lt with rfl | later
      · omega
      · have := before start (le_refl _) later
        omega

/-- A downgrade is an older release, where both versions have a number. -/
theorem isDowngrade_iff {current newer : String} :
    isDowngrade current newer = true ↔
      ¬ Unnumbered current ∧ ¬ Unnumbered newer ∧ release newer < release current := by
  simp only [isDowngrade, Unnumbered]
  by_cases numbered : parse current = [] ∨ parse newer = []
  · rw [if_pos numbered]
    apply iff_of_false Bool.false_ne_true
    rintro ⟨left, right, -⟩
    exact numbered.elim left right
  · obtain ⟨left, right⟩ := not_or.mp numbered
    rw [if_neg numbered, List.range_eq_range', isDowngradeAt_range'_iff, and_iff_right left,
      and_iff_right right, release_lt_iff]
    constructor
    · rintro ⟨i, -, -, before, less⟩
      exact ⟨i, fun j below => before j (Nat.zero_le _) below, less⟩
    · rintro ⟨i, before, less⟩
      have within : i < (parse current).length := by
        by_contra past
        rw [component_of_length_le (not_lt.mp past)] at less
        exact absurd less (Nat.not_lt_zero _)
      exact ⟨i, Nat.zero_le _, by omega, fun j _ below => before j below, less⟩

theorem not_isDowngrade_iff {current newer : String} (numbered : ¬ Unnumbered current)
    (numbered' : ¬ Unnumbered newer) :
    isDowngrade current newer = false ↔ release current ≤ release newer := by
  rw [← Bool.not_eq_true, isDowngrade_iff, and_iff_right numbered, and_iff_right numbered']
  exact not_lt

theorem not_isDowngrade_of_unnumbered {current newer : String}
    (unnumbered : Unnumbered current ∨ Unnumbered newer) : isDowngrade current newer = false := by
  rw [← Bool.not_eq_true, isDowngrade_iff]
  rintro ⟨left, right, -⟩
  exact unnumbered.elim left right

/-! ### Chains of updates -/

/-- Every version was accepted by the version check with the one before it as current. -/
def AcceptedChain (versions : List String) : Prop :=
  versions.IsChain fun current newer => isDowngrade current newer = false

/-- Releases only grow along a chain of numbered versions. -/
theorem AcceptedChain.release_le {first : String} {rest : List String}
    (chain : AcceptedChain (first :: rest))
    (numbered : ∀ version ∈ first :: rest, ¬ Unnumbered version) :
    ∀ version ∈ rest, release first ≤ release version := by
  induction rest generalizing first with
  | nil => exact List.forall_mem_nil _
  | cons second rest ih =>
    obtain ⟨accepted, chain⟩ := List.isChain_cons_cons.mp chain
    have step : release first ≤ release second :=
      (not_isDowngrade_iff (numbered _ (by simp)) (numbered _ (by simp))).mp accepted
    rw [List.forall_mem_cons]
    refine ⟨step, fun version mem => ?_⟩
    exact step.trans (ih chain (fun v mem => numbered v (List.mem_cons_of_mem _ mem)) version mem)

/-- A chain of accepted updates is no downgrade as a whole, if every version in between has a
number. -/
theorem not_isDowngrade_of_chain {first last : String} {between : List String}
    (chain : AcceptedChain (first :: between ++ [last]))
    (numbered : ∀ version ∈ between, ¬ Unnumbered version) :
    isDowngrade first last = false := by
  by_cases ends : Unnumbered first ∨ Unnumbered last
  · exact not_isDowngrade_of_unnumbered ends
  · obtain ⟨firstNumbered, lastNumbered⟩ := not_or.mp ends
    rw [not_isDowngrade_iff firstNumbered lastNumbered]
    apply AcceptedChain.release_le chain
    · intro version mem
      rcases List.mem_cons.mp mem with rfl | mem
      · exact firstNumbered
      · rcases List.mem_append.mp mem with mem | mem
        · exact numbered version mem
        · rwa [List.mem_singleton.mp mem]
    · exact List.mem_append_cons_self

instance (versions : List String) : Decidable (AcceptedChain versions) :=
  inferInstanceAs (Decidable (versions.IsChain _))

theorem not_isDowngrade_of_chain_releases :
    AcceptedChain ["1.0.0", "1.1", "1.10.2"] ∧ isDowngrade "1.0.0" "1.10.2" = false :=
  have chain : AcceptedChain ("1.0.0" :: ["1.1"] ++ ["1.10.2"]) := by decide
  ⟨chain, not_isDowngrade_of_chain chain (by decide)⟩

/-- Through a version without a number a chain leads back to an older release. -/
theorem nightly_leads_back :
    AcceptedChain ["1.1.0", "nightly", "0.9.0"] ∧ isDowngrade "1.1.0" "0.9.0" = true := by
  decide

end UpdateVerify
