import UosTv.Rust.Hex

/-!
How `lunad` decodes the path of a request (`percent_decode`), against the reference.

The loop takes two bytes after each `%`, whether they are digits or not, and pushes each byte that
it gets as a character of its own. The reference keeps what is not an escape, and reads the bytes
that result as UTF-8. What both read alike is a `Token`.
-/

namespace Lunad

open Rust

/-! ### The program -/

/-- `char::to_digit(16)` of a byte. -/
def hexDigit (b : UInt8) : Option Nat := (hexVal 0 b).toOption

/-- The digits of a number, each step checked for an overflow. -/
def radix16Digits (digits : Bytes) : Option Nat :=
  digits.foldlM (fun n b => do
    let digit ← hexDigit b
    if 16 * n + digit < 256 then some (16 * n + digit) else none) 0

/-- `u8::from_str_radix(.., 16)`: at least one digit, behind an optional plus. -/
def fromStrRadix16 (text : Bytes) : Option UInt8 :=
  let digits := if text.length ≠ 1 ∧ text.head? = some 43 then text.tail else text
  if digits = [] then none else (radix16Digits digits).map UInt8.ofNat

/-- Whether two bytes are UTF-8: two characters, or one of two bytes. -/
def isUtf8Pair (hi lo : UInt8) : Bool :=
  (hi < 128 && lo < 128) || (0xC2 ≤ hi && hi ≤ 0xDF && 0x80 ≤ lo && lo ≤ 0xBF)

/-- What the two bytes after a `%` are read as. What is not UTF-8 is replaced by `"00"`. -/
def pairByte (hi lo : UInt8) : Option UInt8 :=
  fromStrRadix16 (if isUtf8Pair hi lo then [hi, lo] else [48, 48])

/-- The loop of `percent_decode`: the bytes that are pushed. -/
def decodeLoop : Bytes → Bytes
  | [] => []
  | b :: rest =>
    if b = 37 then
      match rest with
      | hi :: lo :: rest => (pairByte hi lo).getD 37 :: decodeLoop rest
      | _ => [37]
    else if b = 43 then 32 :: decodeLoop rest
    else b :: decodeLoop rest

/-- `byte as char`. -/
def byteChar (b : UInt8) : Char := Char.ofNat b.toNat

/-- `percent_decode`. -/
def percentDecode (s : String) : String := String.ofList ((decodeLoop (asBytes s)).map byteChar)

/-! ### The reference -/

/-- The byte that two digits stand for. -/
def hexPair (hi lo : UInt8) : Option UInt8 := do
  let high ← hexDigit hi
  let low ← hexDigit lo
  some (.ofNat (16 * high + low))

/-- Each escape becomes its byte, each `+` a space, and every other byte is kept. -/
def reference : Bytes → Bytes
  | [] => []
  | b :: rest =>
    if b = 37 then
      match rest with
      | hi :: lo :: rest =>
        match hexPair hi lo with
        | some v => v :: reference rest
        | none => 37 :: reference (hi :: lo :: rest)
      | [last] => 37 :: reference [last]
      | [] => [37]
    else if b = 43 then 32 :: reference rest
    else b :: reference rest

/-- The bytes outside of which `enc` escapes: letters, digits, `-`, `.`, `_` and `~`. -/
def isUnreserved (b : UInt8) : Bool :=
  (65 ≤ b && b ≤ 90) || (97 ≤ b && b ≤ 122) || (48 ≤ b && b ≤ 57) ||
    b = 45 || b = 46 || b = 95 || b = 126

/-- A digit in upper case, as a byte. -/
def upperDigit (n : Nat) : UInt8 := .ofNat (if n < 10 then 48 + n else 55 + n)

def encByte (b : UInt8) : Bytes :=
  if isUnreserved b then [b] else [37, upperDigit (b.toNat / 16), upperDigit (b.toNat % 16)]

/-- Percent encoding. -/
def enc (s : String) : String := String.ofList (((asBytes s).flatMap encByte).map byteChar)

/-! ### Digits -/

/-- A byte that is pushed: a `+` becomes a space. -/
def plus (b : UInt8) : UInt8 := if b = 43 then 32 else b

theorem hexDigit_eq_some {b : UInt8} {d : Nat} (digit : hexDigit b = some d) : d < 16 ∧
    (b.toNat = 48 + d ∧ d < 10 ∨ (b.toNat = 55 + d ∨ b.toNat = 87 + d) ∧ 10 ≤ d) := by
  unfold hexDigit hexVal at digit
  split_ifs at digit with decimal upper lower
  · cases digit; omega
  · cases digit; omega
  · cases digit; omega
  · cases digit

theorem hexPair_eq_some {hi lo v : UInt8} (pair : hexPair hi lo = some v) :
    ∃ high low, hexDigit hi = some high ∧ hexDigit lo = some low ∧ v.toNat = 16 * high + low := by
  unfold hexPair at pair
  cases high : hexDigit hi with
  | none => rw [high] at pair; cases pair
  | some h =>
    cases low : hexDigit lo with
    | none => rw [high, low] at pair; cases pair
    | some l =>
      rw [high, low] at pair
      cases pair
      refine ⟨h, l, rfl, rfl, ?_⟩
      have bound := (hexDigit_eq_some high).1
      have bound' := (hexDigit_eq_some low).1
      change (16 * h + l) % 256 = _
      omega

theorem radix16Digits_one {b : UInt8} : radix16Digits [b] = hexDigit b := by
  unfold radix16Digits
  cases digit : hexDigit b with
  | none => simp [digit]
  | some d =>
    have bound := (hexDigit_eq_some digit).1
    have small : 16 * 0 + d < 256 := by omega
    simp [digit]
    omega

theorem radix16Digits_two {hi lo : UInt8} :
    radix16Digits [hi, lo] = (hexDigit hi).bind fun high => (hexDigit lo).map (16 * high + ·) := by
  unfold radix16Digits
  cases high : hexDigit hi with
  | none => simp [high]
  | some h =>
    have bound := (hexDigit_eq_some high).1
    cases low : hexDigit lo with
    | none => simp [high, low]
    | some l =>
      have bound' := (hexDigit_eq_some low).1
      have small : 16 * h + l < 256 := by omega
      have small' : h < 256 := by omega
      simp [high, low, small, small']

theorem fromStrRadix16_two {hi lo : UInt8} (unsigned : hi ≠ 43) :
    fromStrRadix16 [hi, lo] = hexPair hi lo := by
  have digits : fromStrRadix16 [hi, lo] = (radix16Digits [hi, lo]).map UInt8.ofNat := by
    simp [fromStrRadix16, unsigned]
  rw [digits, radix16Digits_two, hexPair]
  cases hexDigit hi with
  | none => rfl
  | some h => cases hexDigit lo <;> rfl

theorem fromStrRadix16_plus {lo : UInt8} :
    fromStrRadix16 [43, lo] = (hexDigit lo).map UInt8.ofNat := by
  have digits : fromStrRadix16 [43, lo] = (radix16Digits [lo]).map UInt8.ofNat := by
    simp [fromStrRadix16]
  rw [digits, radix16Digits_one]

theorem hexDigit_ascii {b : UInt8} {d : Nat} (digit : hexDigit b = some d) :
    b < 128 ∧ b ≠ 37 ∧ b ≠ 43 := by
  obtain ⟨small, shape⟩ := hexDigit_eq_some digit
  refine ⟨UInt8.lt_iff_toNat_lt.mpr ?_, fun same => ?_, fun same => ?_⟩
  · change b.toNat < 128
    omega
  · subst same
    change (37 = 48 + d ∧ _ ∨ (37 = 55 + d ∨ 37 = 87 + d) ∧ _) at shape
    omega
  · subst same
    change (43 = 48 + d ∧ _ ∨ (43 = 55 + d ∨ 43 = 87 + d) ∧ _) at shape
    omega

/-- The escapes of the reference are read as in the reference. -/
theorem pairByte_of_hexPair {hi lo v : UInt8} (pair : hexPair hi lo = some v) :
    pairByte hi lo = some v := by
  obtain ⟨high, low, first, second, -⟩ := hexPair_eq_some pair
  have ascii := hexDigit_ascii first
  have utf8 : isUtf8Pair hi lo = true := by
    simp [isUtf8Pair, ascii.1, (hexDigit_ascii second).1]
  rw [pairByte, if_pos utf8, fromStrRadix16_two ascii.2.2, pair]

/-- Other pairs that are read give a small number: `"00"`, or one digit behind a plus. -/
theorem pairByte_small {hi lo v : UInt8} (unpaired : hexPair hi lo = none)
    (read : pairByte hi lo = some v) : v.toNat < 16 := by
  rw [pairByte] at read
  split at read
  · by_cases plus : hi = 43
    · subst plus
      rw [fromStrRadix16_plus] at read
      cases digit : hexDigit lo with
      | none => rw [digit] at read; cases read
      | some d =>
        rw [digit] at read
        cases read
        have bound := (hexDigit_eq_some digit).1
        change d % 256 < 16
        omega
    · rw [fromStrRadix16_two plus, unpaired] at read
      cases read
  · cases read
    decide

/-- A pair that is not read is UTF-8. -/
theorem isUtf8Pair_of_unread {hi lo : UInt8} (unread : pairByte hi lo = none) :
    isUtf8Pair hi lo = true := by
  by_contra invalid
  rw [pairByte, if_neg invalid] at unread
  cases unread

/-! ### Tokens -/

/-- The bytes that the loop and the reference read alike, with the byte that they give. -/
inductive Token : Bytes → UInt8 → Prop where
  | raw {b : UInt8} (other : b ≠ 37) : Token [b] (plus b)
  | escape {hi lo v : UInt8} (pair : hexPair hi lo = some v) : Token [37, hi, lo] v

/-- How a text begins. -/
inductive View : Bytes → Prop where
  | nil : View []
  | token {t rest : Bytes} {v : UInt8} (token : Token t v) : View (t ++ rest)
  | last : View [37]
  | short {b : UInt8} : View [37, b]
  | swallowed {hi lo : UInt8} {rest : Bytes} (unpaired : hexPair hi lo = none) :
      View (37 :: hi :: lo :: rest)

theorem view (r : Bytes) : View r := by
  cases r with
  | nil => exact .nil
  | cons b r =>
    by_cases percent : b = 37
    · subst percent
      cases r with
      | nil => exact .last
      | cons hi r =>
        cases r with
        | nil => exact .short
        | cons lo r =>
          cases pair : hexPair hi lo with
          | none => exact .swallowed pair
          | some v => exact .token (.escape pair)
    · have token : Token [b] (plus b) := .raw percent
      rw [← List.singleton_append]
      exact .token token

section Read

variable {t rest : Bytes} {v b hi lo : UInt8}

theorem decodeLoop_cons (other : b ≠ 37) : decodeLoop (b :: rest) = plus b :: decodeLoop rest := by
  rw [decodeLoop.eq_def, plus]
  simp only [other, if_false]
  split <;> rfl

theorem reference_cons (other : b ≠ 37) : reference (b :: rest) = plus b :: reference rest := by
  rw [reference.eq_def, plus]
  simp only [other, if_false]
  split <;> rfl

theorem Token.decodeLoop (token : Token t v) : decodeLoop (t ++ rest) = v :: decodeLoop rest := by
  cases token with
  | raw other => exact decodeLoop_cons other
  | escape pair =>
    change (pairByte _ _).getD 37 :: _ = _
    rw [pairByte_of_hexPair pair]
    rfl

theorem Token.reference (token : Token t v) : reference (t ++ rest) = v :: reference rest := by
  cases token with
  | raw other => exact reference_cons other
  | escape pair =>
    rw [List.cons_append, List.cons_append, List.cons_append, List.nil_append, Lunad.reference]
    simp only [if_true, pair]

theorem reference_swallowed (unpaired : hexPair hi lo = none) :
    reference (37 :: hi :: lo :: rest) = 37 :: reference (hi :: lo :: rest) := by
  rw [reference]
  simp only [if_true, unpaired]

/-- Behind a `%` there are two digits, or it is kept. -/
theorem reference_percent (r : Bytes) :
    (∃ hi lo v rest, r = hi :: lo :: rest ∧ hexPair hi lo = some v ∧
        reference (37 :: r) = v :: reference rest) ∨
      reference (37 :: r) = 37 :: reference r := by
  cases r with
  | nil => exact .inr rfl
  | cons hi r =>
    cases r with
    | nil => exact .inr rfl
    | cons lo rest =>
      cases pair : hexPair hi lo with
      | none => exact .inr (reference_swallowed pair)
      | some v =>
        have token : Token [37, hi, lo] v := .escape pair
        exact .inl ⟨hi, lo, v, rest, rfl, pair, token.reference⟩

theorem Token.length_pos (token : Token t v) : 0 < t.length := by
  cases token <;> exact Nat.zero_lt_succ _

/-- A digit is read as it is. -/
theorem Token.digit {d : Nat} (digit : hexDigit b = some d) : Token [b] b := by
  obtain ⟨-, percent, unsigned⟩ := hexDigit_ascii digit
  have token : Token [b] (plus b) := .raw percent
  rwa [plus, if_neg unsigned] at token

end Read

/-! ### Bytes that are characters -/

/-- The bytes of a byte that is taken for a character. -/
def latin (b : UInt8) : Bytes := String.utf8EncodeChar (byteChar b)

/-- The bytes of what is decoded. -/
def coded (r : Bytes) : Bytes := (decodeLoop r).flatMap latin

theorem latin_table : ∀ n < 256, latin (.ofNat n) =
    if n < 128 then [.ofNat n]
    else if n < 192 then [0xC2, .ofNat n] else [0xC3, .ofNat (n - 64)] := by
  decide +kernel

theorem latin_low {b : UInt8} (low : b.toNat < 128) : latin b = [b] := by
  have entry := latin_table b.toNat b.toNat_lt
  rwa [UInt8.ofNat_toNat, if_pos low] at entry

theorem latin_high {b : UInt8} (high : 128 ≤ b.toNat) : latin b =
    if b.toNat < 192 then [0xC2, b] else [0xC3, .ofNat (b.toNat - 64)] := by
  have entry := latin_table b.toNat b.toNat_lt
  rwa [UInt8.ofNat_toNat, if_neg (Nat.not_lt.mpr high)] at entry

/-- A byte that is not ASCII becomes two bytes that are not. -/
theorem exists_latin {b : UInt8} (high : 128 ≤ b.toNat) :
    ∃ first second, latin b = [first, second] ∧ 128 ≤ first.toNat ∧ 128 ≤ second.toNat := by
  rw [latin_high high]
  split
  · exact ⟨0xC2, b, rfl, by decide, high⟩
  · refine ⟨0xC3, _, rfl, by decide, ?_⟩
    have bound := b.toNat_lt
    change 128 ≤ (b.toNat - 64) % 256
    omega

theorem asBytes_percentDecode (s : String) : asBytes (percentDecode s) = coded (asBytes s) := by
  simp only [asBytes, percentDecode, coded, String.toList_ofList, List.flatMap_map]
  rfl

section Coded

variable {t rest : Bytes} {v b hi lo : UInt8}

theorem coded_token (token : Token t v) : coded (t ++ rest) = latin v ++ coded rest := by
  rw [coded, token.decodeLoop, List.flatMap_cons, ← coded]

theorem coded_low (token : Token t v) (low : v.toNat < 128) :
    coded (t ++ rest) = v :: coded rest := by
  rw [coded_token token, latin_low low, List.singleton_append]

/-- A digit is coded as it is. -/
theorem coded_digit {d : Nat} (digit : hexDigit b = some d) : coded (b :: rest) = b :: coded rest :=
  coded_low (.digit digit) (UInt8.lt_iff_toNat_lt.mp (hexDigit_ascii digit).1)

theorem coded_last : coded [37] = [37] := by
  change latin 37 ++ [] = [37]
  rw [latin_low (by decide), List.append_nil]

theorem coded_short : coded [37, b] = [37] := coded_last

/-- The byte that is pushed for a pair that is no escape. -/
theorem swallowed_low (unpaired : hexPair hi lo = none) :
    ((pairByte hi lo).getD 37).toNat < 128 := by
  cases read : pairByte hi lo with
  | none => decide
  | some v => exact Nat.lt_trans (pairByte_small unpaired read) (by decide)

theorem coded_swallowed (unpaired : hexPair hi lo = none) :
    coded (37 :: hi :: lo :: rest) = (pairByte hi lo).getD 37 :: coded rest := by
  change latin ((pairByte hi lo).getD 37) ++ coded rest = _
  rw [latin_low (swallowed_low unpaired), List.singleton_append]

end Coded

end Lunad
