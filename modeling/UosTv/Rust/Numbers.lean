import Mathlib.Algebra.Group.Nat.Defs
import UosTv.Rust.Text

/-!
Integers of the Rust standard library: parsing, and addition and multiplication that overflow.
-/

namespace Rust

/-- The value of decimal digits. -/
def decimal (cs : List Char) : Nat := cs.foldl (fun n c => 10 * n + (c.toNat - 48)) 0

/-- The digits of an integer below `bound`. -/
def parseDigits (bound : Nat) (cs : List Char) : Option Nat :=
  if cs ≠ [] ∧ cs.all Char.isDigit ∧ decimal cs < bound then some (decimal cs) else none

/-- `str::parse::<u32>().ok()`: digits, after a `+` or not. -/
def parseU32 (s : String) : Option Nat :=
  match s.toList with
  | '+' :: cs => parseDigits (2 ^ 32) cs
  | cs => parseDigits (2 ^ 32) cs

/-- `a + b` of two `u64`. With overflow checks (in debug builds) an overflow panics, which is
`none`; without it wraps. -/
def addU64 (checks : Bool) (a b : UInt64) : Option UInt64 :=
  if checks ∧ 2 ^ 64 ≤ a.toNat + b.toNat then none else some (a + b)

/-- `a + b` of two `u32`. -/
def addU32 (checks : Bool) (a b : UInt32) : Option UInt32 :=
  if checks ∧ 2 ^ 32 ≤ a.toNat + b.toNat then none else some (a + b)

/-- `a * b` of two `u32`. -/
def mulU32 (checks : Bool) (a b : UInt32) : Option UInt32 :=
  if checks ∧ 2 ^ 32 ≤ a.toNat * b.toNat then none else some (a * b)

section Sums

variable {checks : Bool} {a b : UInt64}

theorem addU64_of_lt (fits : a.toNat + b.toNat < 2 ^ 64) : addU64 checks a b = some (a + b) :=
  if_neg (by omega)

theorem addU64_of_le (overflows : 2 ^ 64 ≤ a.toNat + b.toNat) :
    addU64 true a b = none ∧ addU64 false a b = some (a + b) :=
  ⟨if_pos ⟨rfl, overflows⟩, if_neg (by simp)⟩

theorem toNat_add_of_lt (fits : a.toNat + b.toNat < 2 ^ 64) :
    (a + b).toNat = a.toNat + b.toNat := by
  rw [UInt64.toNat_add, Nat.mod_eq_of_lt fits]

theorem toNat_add_of_le (overflows : 2 ^ 64 ≤ a.toNat + b.toNat) :
    (a + b).toNat + 2 ^ 64 = a.toNat + b.toNat := by
  have := a.toNat_lt
  have := b.toNat_lt
  rw [UInt64.toNat_add]
  omega

end Sums

example : ["7", "+7", "007", "", "+", "-7", "7 ", "4294967296"].map parseU32 =
    [some 7, some 7, some 7, none, none, none, none, none] := by decide

end Rust
