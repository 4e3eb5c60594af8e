import Mathlib.Data.List.Basic
import Mathlib.Tactic.Common

/-!
Cutting a list where a predicate on the elements since the last cut says so.

A cut forgets what came before it, and what comes later is not looked at. So a list is cut
behind a cut as if it began there (`segments_of_cut`), and what has been cut off in a
prefix is cut off in every list with that prefix (`prefix_closed`).
-/

namespace Segments

variable {β : Type*} (cuts : List β → Bool)

/-- The segments, when `current` are the elements since the last cut. What is left at the end is
a segment too, if there is anything left. -/
def segmentsFrom (current : List β) : List β → List (List β)
  | [] => if current.isEmpty then [] else [current]
  | b :: rest =>
    if cuts (current ++ [b]) then (current ++ [b]) :: segmentsFrom [] rest
    else segmentsFrom (current ++ [b]) rest

def segments (elems : List β) : List (List β) := segmentsFrom cuts [] elems

/-- The segments that have been closed by a cut. -/
def closedFrom (current : List β) : List β → List (List β)
  | [] => []
  | b :: rest =>
    if cuts (current ++ [b]) then (current ++ [b]) :: closedFrom [] rest
    else closedFrom (current ++ [b]) rest

/-- The elements after the last cut. -/
def openFrom (current : List β) : List β → List β
  | [] => current
  | b :: rest =>
    if cuts (current ++ [b]) then openFrom [] rest else openFrom (current ++ [b]) rest

variable {cuts} {current a s p x y : List β}

/-- What comes later does not change what has been cut off. -/
theorem segmentsFrom_append : segmentsFrom cuts current (a ++ s) =
    closedFrom cuts current a ++ segmentsFrom cuts (openFrom cuts current a) s := by
  induction a generalizing current with
  | nil => rfl
  | cons b a ih =>
    rw [List.cons_append, segmentsFrom, closedFrom, openFrom]
    split
    · rw [ih, List.cons_append]
    · exact ih

theorem flatten_closedFrom : (closedFrom cuts current a).flatten ++ openFrom cuts current a =
    current ++ a := by
  induction a generalizing current with
  | nil => simp [closedFrom, openFrom]
  | cons b a ih =>
    rw [closedFrom, openFrom]
    split
    · rw [List.flatten_cons, List.append_assoc, ih]
      simp
    · rw [ih]
      simp

theorem length_closedFrom (cuts : List β → Bool) (a : List β) :
    (closedFrom cuts [] a).flatten.length + (openFrom cuts [] a).length = a.length := by
  rw [← List.length_append, flatten_closedFrom, List.nil_append]

/-- The elements after the last cut do not ask for a cut. -/
theorem not_cuts_openFrom (start : current ≠ [] → cuts current = false)
    (filled : openFrom cuts current a ≠ []) : cuts (openFrom cuts current a) = false := by
  induction a generalizing current with
  | nil => exact start filled
  | cons b a ih =>
    rw [openFrom] at filled ⊢
    split at filled
    · rename_i cut
      rw [if_pos cut]
      exact ih (fun none => absurd rfl none) filled
    · rename_i open'
      rw [if_neg open']
      exact ih (fun _ => Bool.eq_false_iff.mpr open') filled

/-- The first segment begins with the elements since the last cut. It goes on, or it is at the
end of the list. -/
theorem segmentsFrom_cons {first : List β} {rest : List (List β)}
    (segs : segmentsFrom cuts current s = first :: rest) :
    current.length < first.length ∨ first = current ∧ s = [] := by
  induction s generalizing current with
  | nil =>
    rw [segmentsFrom] at segs
    split at segs
    · cases segs
    · cases segs
      exact .inr ⟨rfl, rfl⟩
  | cons b s ih =>
    left
    rw [segmentsFrom] at segs
    split at segs
    · cases segs
      simp
    · rcases ih segs with longer | ⟨rfl, -⟩
      · rw [List.length_append] at longer
        omega
      · simp

/-- Segments that reach no further than `a` have been closed in `a`, or the last of them is at
the end of the list and was not closed by a cut. -/
theorem prefix_or_last {before after : List (List β)} (segs : segments cuts (a ++ s) = before ++ after)
    (within : before.flatten.length ≤ a.length) : before <+: closedFrom cuts [] a ∨
      s = [] ∧ before = closedFrom cuts [] a ++ [openFrom cuts [] a] := by
  rw [segments, segmentsFrom_append] at segs
  have length := length_closedFrom cuts a
  rcases List.append_eq_append_iff.mp segs with ⟨mid, rfl, rest⟩ | ⟨mid, closed, -⟩
  · cases mid with
    | nil => exact .inl (List.append_nil _ ▸ List.prefix_refl _)
    | cons first mid =>
      rw [List.flatten_append, List.flatten_cons, List.length_append, List.length_append] at within
      rcases segmentsFrom_cons rest with longer | ⟨rfl, rfl⟩
      · omega
      · rw [segmentsFrom] at rest
        split at rest
        · cases rest
        · obtain ⟨-, ends⟩ := List.cons.inj rest
          rw [(List.append_eq_nil_iff.mp ends.symm).1]
          exact .inr ⟨rfl, rfl⟩
  · exact .inl ⟨mid, closed.symm⟩

/-- There are no empty segments. -/
theorem not_mem_segmentsFrom : [] ∉ segmentsFrom cuts current s := by
  induction s generalizing current with
  | nil =>
    rw [segmentsFrom]
    split
    · exact List.not_mem_nil
    · rename_i filled
      rw [List.mem_singleton]
      rintro rfl
      exact filled rfl
  | cons b s ih =>
    rw [segmentsFrom]
    split
    · rw [List.mem_cons, not_or]
      exact ⟨by simp, ih⟩
    · exact ih

theorem not_mem_segments (cuts : List β → Bool) (s : List β) : [] ∉ segments cuts s :=
  not_mem_segmentsFrom

/-- After a cut the rest is cut as if the list began there, and what is before it as if the list
ended there. -/
theorem segments_of_cut {before after : List (List β)}
    (segs : segments cuts (a ++ s) = before ++ after) (cut : before.flatten.length = a.length) :
    before = segments cuts a ∧ after = segments cuts s := by
  have alone : segments cuts a = closedFrom cuts [] a ++ segmentsFrom cuts (openFrom cuts [] a) [] := by
    rw [← segmentsFrom_append, List.append_nil, segments]
  rcases prefix_or_last segs (Nat.le_of_eq cut) with ⟨mid, closed⟩ | ⟨rfl, whole⟩
  · -- Between the cut and the end of `a` there is no room for a segment.
    have sum := length_closedFrom cuts a
    rw [← closed, List.flatten_append, List.length_append, cut] at sum
    have nothing : openFrom cuts [] a = [] := List.length_eq_zero_iff.mp (by omega)
    rw [segments, segmentsFrom_append, nothing, ← closed] at segs
    have none : mid = [] := by
      cases mid with
      | nil => rfl
      | cons seg mid =>
        have empty : seg = [] := by
          apply List.length_eq_zero_iff.mp
          rw [List.flatten_cons, List.length_append] at sum
          omega
        have member : seg ∈ segments cuts a := by
          rw [alone, ← closed]
          simp
        exact absurd (empty ▸ member) (not_mem_segments cuts a)
    rw [none, List.append_nil] at segs closed
    rw [alone, nothing, ← closed]
    exact ⟨(List.append_nil _).symm, (List.append_cancel_left segs).symm⟩
  · have left : segmentsFrom cuts (openFrom cuts [] a) [] = [openFrom cuts [] a] := by
      rw [segmentsFrom]
      split
      · rename_i empty
        exfalso
        apply not_mem_segments cuts (a ++ [])
        rw [segs, whole, List.isEmpty_iff.mp empty]
        simp
      · rfl
    have same : before = segments cuts a := by rw [alone, left, whole]
    rw [List.append_nil, ← same] at segs
    exact ⟨same, List.self_eq_append_right.mp segs⟩

/-- A segment that is closed by a cut within a prefix is closed there whatever comes later. -/
theorem prefix_closed {before after : List (List β)} {seg : List β}
    (segs : segments cuts (p ++ x) = before ++ seg :: after) (closed : cuts seg = true)
    (within : (before ++ [seg]).flatten.length ≤ p.length) :
    before ++ [seg] <+: segments cuts (p ++ y) := by
  have parts : segments cuts (p ++ x) = (before ++ [seg]) ++ after := by
    rw [segs, List.append_assoc]
    rfl
  rw [segments, segmentsFrom_append]
  rcases prefix_or_last parts within with closes | ⟨rfl, last⟩
  · exact closes.trans (List.prefix_append _ _)
  · obtain ⟨-, last⟩ := List.append_inj' last rfl
    obtain ⟨rfl, -⟩ := List.cons.inj last
    exfalso
    by_cases filled : openFrom cuts [] p = []
    · apply not_mem_segments cuts (p ++ [])
      rw [segs, filled]
      exact List.mem_append_cons_self
    · rw [not_cuts_openFrom (fun none => absurd rfl none) filled] at closed
      cases closed

/-! ### The segments one by one -/

theorem flatten_segmentsFrom : (segmentsFrom cuts current s).flatten = current ++ s := by
  induction s generalizing current with
  | nil =>
    rw [segmentsFrom]
    split
    · rename_i empty
      rw [List.isEmpty_iff.mp empty]
      rfl
    · simp
  | cons b s ih =>
    rw [segmentsFrom]
    split
    · rw [List.flatten_cons, ih]
      simp
    · rw [ih]
      simp

theorem flatten_segments (cuts : List β → Bool) (s : List β) : (segments cuts s).flatten = s :=
  flatten_segmentsFrom

/-- When a cut is forced at some length, no segment is longer. -/
theorem length_le_of_mem_segmentsFrom {limit : Nat}
    (forced : ∀ seg : List β, limit ≤ seg.length → cuts seg = true) (short : current.length < limit) :
    ∀ seg ∈ segmentsFrom cuts current s, seg.length ≤ limit := by
  induction s generalizing current with
  | nil =>
    rw [segmentsFrom]
    split
    · exact List.forall_mem_nil _
    · exact List.forall_mem_singleton.mpr (Nat.le_of_lt short)
  | cons b s ih =>
    have grown : (current ++ [b]).length ≤ limit := by
      rw [List.length_append, List.length_singleton]
      exact short
    rw [segmentsFrom]
    split
    · rename_i cut
      have start : ([] : List β).length < limit := Nat.lt_of_le_of_lt (Nat.zero_le _) short
      exact List.forall_mem_cons.mpr ⟨grown, ih start⟩
    · rename_i uncut
      apply ih
      exact Nat.lt_of_not_le fun full => uncut (forced _ full)

/-- Every segment but the last is closed by a cut. -/
theorem cuts_of_ne_nil {before after : List (List β)} {seg : List β}
    (segs : segmentsFrom cuts current s = before ++ seg :: after) (more : after ≠ []) :
    cuts seg = true := by
  induction s generalizing current before with
  | nil =>
    rw [segmentsFrom] at segs
    split at segs
    · exact absurd segs.symm (by simp)
    · have lengths := congrArg List.length segs
      have rest := List.length_pos_of_ne_nil more
      rw [List.length_append, List.length_cons, List.length_cons, List.length_nil] at lengths
      omega
  | cons b s ih =>
    rw [segmentsFrom] at segs
    split at segs
    · rename_i cut
      cases before with
      | nil =>
        obtain ⟨rfl, -⟩ := List.cons.inj segs
        exact cut
      | cons first before =>
        obtain ⟨-, rest⟩ := List.cons.inj segs
        exact ih rest
    · exact ih segs

end Segments
