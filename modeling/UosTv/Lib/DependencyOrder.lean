import Mathlib.Data.List.Chain
import Mathlib.Logic.Relation
import Mathlib.Tactic.Common

/-!
Orders that respect a dependency relation.

`r a b` reads "`a` needs `b`". A list is `Ordered` when each element comes after all that
it needs, a `Cycle` is a list of distinct elements each of which needs the next and the
last the first, and `Acyclic` says that nothing needs itself, directly or not. An ordered
list that holds every element with a need is what certifies acyclicity (`Ordered.acyclic`);
a cycle is what refutes it (`Cycle.not_acyclic`).
-/

namespace DependencyOrder

open Relation

variable {α : Type*} {r : α → α → Prop} {l : List α}

/-- Each element comes after all that it needs. -/
def Ordered (r : α → α → Prop) (l : List α) : Prop :=
  ∀ before a after, l = before ++ a :: after → ∀ b, r a b → b ∈ before

/-- Each element needs the next one and the last one needs the first. -/
structure Cycle (r : α → α → Prop) (c : List α) : Prop where
  nonempty : c ≠ []
  nodup : c.Nodup
  chain : c.IsChain r
  closes : ∀ last ∈ c.getLast?, ∀ first ∈ c.head?, r last first

/-- Nothing needs itself. -/
def Acyclic (r : α → α → Prop) : Prop := ∀ a, ¬ TransGen r a a

theorem ordered_nil : Ordered r [] := by
  intro before a after split
  cases before <;> cases split

theorem ordered_concat {a : α} : Ordered r (l ++ [a]) ↔ Ordered r l ∧ ∀ b, r a b → b ∈ l := by
  constructor
  · intro ordered
    refine ⟨fun before c after split b needs => ?_, fun b needs => ordered l a [] rfl b needs⟩
    exact ordered before c (after ++ [a]) (by rw [split, List.append_assoc, List.cons_append]) b needs
  · rintro ⟨ordered, last⟩ before c after split b needs
    rcases List.eq_nil_or_concat after with rfl | ⟨after, d, rfl⟩
    · obtain ⟨rfl, same⟩ := List.append_inj' split rfl
      obtain rfl : a = c := List.singleton_inj.mp same
      exact last b needs
    · rw [List.concat_eq_append, ← List.cons_append, ← List.append_assoc] at split
      obtain ⟨same, -⟩ := List.append_inj' split rfl
      exact ordered before c after same b needs

namespace Ordered

/-- What an element needs indirectly comes before it too. -/
theorem transGen (ordered : Ordered r l) {before after : List α} {a b : α}
    (split : l = before ++ a :: after) (needs : TransGen r a b) : b ∈ before := by
  induction needs with
  | single needs => exact ordered _ _ _ split _ needs
  | tail _ needs ih =>
    obtain ⟨first, rest, rfl⟩ := List.append_of_mem ih
    have earlier := ordered first _ (rest ++ a :: after) (by simp [split]) _ needs
    exact List.mem_append_left _ earlier

theorem acyclic (ordered : Ordered r l) (nodup : l.Nodup) (all : ∀ a b, r a b → a ∈ l) :
    Acyclic r := by
  intro a needs
  have mem : a ∈ l := by
    cases TransGen.head'_iff.mp needs with
    | intro b first => exact all a b first.1
  obtain ⟨before, after, rfl⟩ := List.append_of_mem mem
  have earlier := ordered.transGen rfl needs
  exact (List.nodup_append.mp nodup).2.2 a earlier a List.mem_cons_self rfl

/-- The first element outside `S` needs only elements of `S`. -/
theorem exists_first (ordered : Ordered r l) (S : α → Prop) (outside : ∃ a ∈ l, ¬ S a) :
    ∃ a ∈ l, ¬ S a ∧ ∀ b, r a b → S b := by
  induction l using List.reverseRecOn with
  | nil =>
    obtain ⟨a, mem, -⟩ := outside
    cases mem
  | append_singleton l a ih =>
    obtain ⟨ordered, last⟩ := ordered_concat.mp ordered
    by_cases earlier : ∃ b ∈ l, ¬ S b
    · obtain ⟨b, mem, first⟩ := ih ordered earlier
      exact ⟨b, List.mem_append_left _ mem, first⟩
    · push Not at earlier
      obtain ⟨b, mem, out⟩ := outside
      rcases List.mem_append.mp mem with mem | mem
      · exact absurd (earlier b mem) out
      · obtain rfl := List.mem_singleton.mp mem
        exact ⟨b, List.mem_append_right _ mem, out, fun d needs => earlier d (last d needs)⟩

end Ordered

/-- A cycle leads back to where it starts. -/
theorem Cycle.not_acyclic {c : List α} (cycle : Cycle r c) : ¬ Acyclic r := by
  intro acyclic
  obtain ⟨nonempty, -, chain, closes⟩ := cycle
  have around := List.relationReflTransGen_of_exists_isChain c chain nonempty
  refine acyclic _ (TransGen.tail' around (closes _ ?_ _ ?_))
  · exact List.getLast?_eq_some_getLast nonempty
  · exact List.head?_eq_some_head nonempty

/-- A path that comes back to one of its elements ends in a cycle. -/
theorem cycle_drop {path : List α} {i : Nat} {a last : α} (nodup : path.Nodup)
    (chain : path.IsChain r) (at_i : path[i]? = some a) (ends : path.getLast? = some last)
    (back : r last a) : Cycle r (path.drop i) := by
  have lt : i < path.length := (List.getElem?_eq_some_iff.mp at_i).1
  refine ⟨?_, nodup.sublist (List.drop_sublist i path), chain.drop i, ?_⟩
  · simpa using lt
  · intro last' isLast first isFirst
    rw [List.getLast?_drop, if_neg (by omega), ends] at isLast
    rw [List.head?_drop, at_i] at isFirst
    cases isLast
    cases isFirst
    exact back

end DependencyOrder
