import Mathlib.Data.Char
import UosTv.Lib.PrefixCode
import UosTv.Rust.Text

/-!
Strings of JavaScript: sequences of UTF-16 code units.

A Unicode string has one encoding, in which a character outside the basic plane is two
units, a high and a low surrogate. `startsWith` and `endsWith` compare units; on encodings
they compare characters, since no unit of a pair is a unit of its own.
-/

namespace Js

/-- A string, by its code units. -/
abbrev Str := List UInt16

/-- The code units of a character. -/
def units (c : Char) : Str :=
  if c.toNat < 0x10000 then [.ofNat c.toNat]
  else [.ofNat (0xD800 + (c.toNat - 0x10000) / 0x400), .ofNat (0xDC00 + (c.toNat - 0x10000) % 0x400)]

/-- The string with these characters. -/
def encode (s : String) : Str := s.toList.flatMap units

/-- `String.prototype.startsWith`. -/
def startsWith (s pre : Str) : Bool := decide (pre <+: s)

/-- `String.prototype.endsWith`. -/
def endsWith (s suf : Str) : Bool := decide (suf <:+ s)

/-- `s.slice(0, -n)`. -/
def dropEnd (s : Str) (n : Nat) : Str := s.take (s.length - n)

/-! ### Reading characters back -/

/-- The character at an end of a string, and the other units: of the two units of a pair, the
one at that end is among the `0x400` units from `tag` on. -/
def readUnits (tag : Nat) (join : UInt16 → UInt16 → Nat) : Str → Option (Char × Str)
  | [] => none
  | [u] => some (Char.ofNat u.toNat, [])
  | u :: v :: rest =>
    if tag ≤ u.toNat ∧ u.toNat < tag + 0x400 then some (Char.ofNat (join u v), rest)
    else some (Char.ofNat u.toNat, v :: rest)

/-- The character of a pair. -/
def joined (high low : UInt16) : Nat :=
  0x10000 + (high.toNat - 0xD800) * 0x400 + (low.toNat - 0xDC00)

section Units

variable {tag : Nat} {join : UInt16 → UInt16 → Nat} {c : Char} {u v : UInt16}

theorem not_surrogate (c : Char) : c.toNat < 0xD800 ∨ 0xDFFF < c.toNat := by
  have valid := c.valid
  change c.toNat < 0xD800 ∨ 0xDFFF < c.toNat ∧ c.toNat < 0x110000 at valid
  exact valid.imp_right And.left

theorem toNat_lt (c : Char) : c.toNat < 0x110000 := by
  have valid := c.valid
  change c.toNat < 0xD800 ∨ 0xDFFF < c.toNat ∧ c.toNat < 0x110000 at valid
  omega

theorem readUnits_single (surrogate : 0xD800 ≤ tag ∧ tag + 0x400 ≤ 0xE000)
    (single : u.toNat = c.toNat) (rest : Str) : readUnits tag join (u :: rest) = some (c, rest) := by
  cases rest with
  | nil => rw [readUnits, single, Char.ofNat_toNat]
  | cons v rest =>
    have outside : ¬ (tag ≤ u.toNat ∧ u.toNat < tag + 0x400) := by
      have plane := not_surrogate c
      omega
    rw [readUnits, if_neg outside, single, Char.ofNat_toNat]

theorem readUnits_pair (inside : tag ≤ u.toNat ∧ u.toNat < tag + 0x400)
    (whole : join u v = c.toNat) (rest : Str) :
    readUnits tag join (u :: v :: rest) = some (c, rest) := by
  rw [readUnits, if_pos inside, whole, Char.ofNat_toNat]

theorem toNat_unit {n : Nat} (small : n < 0x10000) : (UInt16.ofNat n).toNat = n :=
  UInt16.toNat_ofNat_of_lt' small

/-- A character is one unit, or a pair of units that it can be joined from. -/
theorem units_cases (c : Char) :
    (∃ u, units c = [u] ∧ u.toNat = c.toNat) ∨
      ∃ high low, units c = [high, low] ∧ (0xD800 ≤ high.toNat ∧ high.toNat < 0xD800 + 0x400) ∧
        (0xDC00 ≤ low.toNat ∧ low.toNat < 0xDC00 + 0x400) ∧ joined high low = c.toNat := by
  have bound := toNat_lt c
  unfold units
  split_ifs with basic
  · exact .inl ⟨_, rfl, toNat_unit basic⟩
  · have high : (UInt16.ofNat (0xD800 + (c.toNat - 0x10000) / 0x400)).toNat = _ :=
      toNat_unit (by omega)
    have low : (UInt16.ofNat (0xDC00 + (c.toNat - 0x10000) % 0x400)).toNat = _ :=
      toNat_unit (by omega)
    refine .inr ⟨_, _, rfl, ?_, ?_, ?_⟩
    · omega
    · omega
    · unfold joined
      omega

end Units

theorem reads_units : PrefixCode.Reads units (readUnits 0xD800 joined) where
  nil := rfl
  append c rest := by
    rcases units_cases c with ⟨u, single, same⟩ | ⟨high, low, pair, first, -, whole⟩
    · rw [single]
      exact readUnits_single (by decide) same rest
    · rw [pair]
      exact readUnits_pair first whole rest

theorem reads_reversed :
    PrefixCode.Reads (fun c => (units c).reverse) (readUnits 0xDC00 fun low high => joined high low) where
  nil := rfl
  append c rest := by
    rcases units_cases c with ⟨u, single, same⟩ | ⟨high, low, pair, -, last, whole⟩
    · rw [single]
      exact readUnits_single (by decide) same rest
    · rw [pair]
      apply readUnits_pair last _ rest
      exact whole

/-! ### Unicode strings -/

section Encode

variable {s t : String}

theorem encode_injective : Function.Injective encode := fun _ _ same =>
  String.toList_injective (reads_units.flatMap_injective same)

theorem encode_append (s t : String) : encode (s ++ t) = encode s ++ encode t := by
  rw [encode, String.toList_append, List.flatMap_append]
  rfl

theorem startsWith_encode (s pre : String) :
    startsWith (encode s) (encode pre) = Rust.startsWith s pre :=
  decide_eq_decide.mpr reads_units.flatMap_isPrefix_iff

theorem endsWith_encode (s suf : String) :
    endsWith (encode s) (encode suf) = true ↔ suf.toList <:+ s.toList :=
  decide_eq_true_iff.trans reads_reversed.flatMap_isSuffix_iff

theorem dropEnd_encode_append (s suf : String) :
    dropEnd (encode (s ++ suf)) (encode suf).length = encode s := by
  rw [dropEnd, encode_append, List.length_append, Nat.add_sub_cancel_right, List.take_left]

end Encode

end Js
