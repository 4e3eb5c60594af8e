import Mathlib.Data.List.Infix
import Mathlib.Tactic.Common

/-!
Codes that can be read back symbol by symbol.

When the first symbol of an encoding can be told from what follows it, an encoded list
begins with another exactly when the lists do, and encoding is injective. The same holds of
ends when the last symbol can be told from what precedes it.
-/

namespace PrefixCode

variable {α β : Type*}

/-- `head` reads the first symbol of an encoding, and leaves what follows. -/
structure Reads (code : α → List β) (head : List β → Option (α × List β)) : Prop where
  nil : head [] = none
  append : ∀ a rest, head (code a ++ rest) = some (a, rest)

variable {code : α → List β} {head : List β → Option (α × List β)} {as bs : List α}

theorem Reads.ne_nil (reads : Reads code head) (a : α) : code a ≠ [] := by
  intro empty
  have first := reads.append a []
  rw [empty, List.nil_append, reads.nil] at first
  cases first

theorem Reads.flatMap_isPrefix_iff (reads : Reads code head) :
    as.flatMap code <+: bs.flatMap code ↔ as <+: bs := by
  constructor
  · induction as generalizing bs with
    | nil => exact fun _ => List.nil_prefix
    | cons a as ih =>
      rintro ⟨rest, whole⟩
      rw [List.flatMap_cons, List.append_assoc] at whole
      cases bs with
      | nil => exact absurd (List.append_eq_nil_iff.mp whole).1 (reads.ne_nil a)
      | cons b bs =>
        rw [List.flatMap_cons] at whole
        have firsts := congrArg head whole
        rw [reads.append, reads.append] at firsts
        obtain ⟨rfl, tails⟩ := Prod.mk.inj (Option.some.inj firsts)
        exact List.prefix_cons_inj a |>.mpr (ih ⟨rest, tails⟩)
  · rintro ⟨rest, rfl⟩
    rw [List.flatMap_append]
    exact List.prefix_append _ _

theorem Reads.flatMap_injective (reads : Reads code head) :
    Function.Injective fun as : List α => as.flatMap code := by
  intro as bs same
  change as.flatMap code = bs.flatMap code at same
  have forth : as <+: bs := by
    rw [← reads.flatMap_isPrefix_iff, same]
  have back : bs <+: as := by
    rw [← reads.flatMap_isPrefix_iff, same]
  exact forth.eq_of_length (Nat.le_antisymm forth.length_le back.length_le)

/-- When the last symbol can be told as well, an encoded list ends with another exactly when
the lists do. -/
theorem Reads.flatMap_isSuffix_iff (reads : Reads (fun a => (code a).reverse) head) :
    as.flatMap code <:+ bs.flatMap code ↔ as <:+ bs := by
  rw [← List.reverse_prefix, List.reverse_flatMap, List.reverse_flatMap, ← List.reverse_prefix]
  exact reads.flatMap_isPrefix_iff

end PrefixCode
