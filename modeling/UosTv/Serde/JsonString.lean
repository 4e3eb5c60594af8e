import UosTv.Lib.PrefixCode
import UosTv.Rust.Text

/-!
`serde_json` on strings: `to_vec(&str)` writes a quoted JSON string.

Quotation marks, backslashes and control characters below U+0020 are escaped, every
other character is written as it is. `unescapeHead` reads one possibly escaped
character back, so the escapes form a prefix code and quoting is injective; the quoted
text is longer than the string by at least the two quotation marks.
-/

namespace SerdeJson

open Rust

/-- The lower-case hexadecimal digit of a number below 16. -/
def hexDigit (n : Nat) : Char := Char.ofNat (if n < 10 then 48 + n else 87 + n)

/-- The value of a lower-case hexadecimal digit. -/
def hexValue (c : Char) : Nat := if c.toNat < 58 then c.toNat - 48 else c.toNat - 87

/-- The characters written for `c` inside a JSON string. -/
def escapeChar (c : Char) : List Char :=
  if c = '"' then ['\\', '"']
  else if c = '\\' then ['\\', '\\']
  else if c = Char.ofNat 8 then ['\\', 'b']
  else if c = '\t' then ['\\', 't']
  else if c = '\n' then ['\\', 'n']
  else if c = Char.ofNat 12 then ['\\', 'f']
  else if c = '\r' then ['\\', 'r']
  else if c.toNat < 32 then ['\\', 'u', '0', '0', hexDigit (c.toNat / 16), hexDigit (c.toNat % 16)]
  else [c]

/-- The JSON text of a string. -/
def quoted (s : String) : String := String.ofList ('"' :: s.toList.flatMap escapeChar ++ ['"'])

/-- `serde_json::to_vec` of a string. -/
def toVec (s : String) : List UInt8 := asBytes (quoted s)

theorem fromUtf8Lossy_toVec (s : String) : fromUtf8Lossy (toVec s) = quoted s :=
  fromUtf8Lossy_asBytes _

/-! ### Escapes are a prefix code -/

/-- Reads one character of a JSON string back. -/
def unescapeHead : List Char → Option (Char × List Char)
  | '\\' :: 'u' :: '0' :: '0' :: hi :: lo :: rest =>
    some (Char.ofNat (16 * hexValue hi + hexValue lo), rest)
  | '\\' :: 'b' :: rest => some (Char.ofNat 8, rest)
  | '\\' :: 't' :: rest => some ('\t', rest)
  | '\\' :: 'n' :: rest => some ('\n', rest)
  | '\\' :: 'f' :: rest => some (Char.ofNat 12, rest)
  | '\\' :: 'r' :: rest => some ('\r', rest)
  | '\\' :: c :: rest => some (c, rest)
  | c :: rest => some (c, rest)
  | [] => none

private theorem hex_roundtrip :
    ∀ n < 32, 16 * hexValue (hexDigit (n / 16)) + hexValue (hexDigit (n % 16)) = n := by
  decide

theorem unescapeHead_escapeChar (c : Char) (rest : List Char) :
    unescapeHead (escapeChar c ++ rest) = some (c, rest) := by
  have step : ∀ {p : Prop} [Decidable p] {one other : List Char},
      (p → unescapeHead (one ++ rest) = some (c, rest)) →
      (¬ p → unescapeHead (other ++ rest) = some (c, rest)) →
      unescapeHead ((if p then one else other) ++ rest) = some (c, rest) := by
    intro p _ one other yes no
    exact iteInduction (motive := fun cs => unescapeHead (cs ++ rest) = some (c, rest)) yes no
  unfold escapeChar
  apply step
  · rintro rfl; rfl
  intro _
  apply step
  · rintro rfl; rfl
  intro backslash
  iterate 5
    apply step
    · rintro rfl; rfl
    intro _
  apply step
  · intro control
    simp only [List.cons_append, List.nil_append, unescapeHead, hex_roundtrip _ control,
      Char.ofNat_toNat]
  · -- A character written as it is cannot be taken for the start of an escape.
    intro _
    rw [List.singleton_append, unescapeHead]
    all_goals
      intros
      exact backslash ‹_›

theorem reads_escapeChar : PrefixCode.Reads escapeChar unescapeHead :=
  ⟨rfl, unescapeHead_escapeChar⟩

theorem escapeChar_ne_nil (c : Char) : escapeChar c ≠ [] := reads_escapeChar.ne_nil c

theorem escape_injective {cs ds : List Char}
    (same : cs.flatMap escapeChar = ds.flatMap escapeChar) : cs = ds :=
  reads_escapeChar.flatMap_injective same

/-! ### Quoted strings -/

theorem toList_quoted (s : String) :
    (quoted s).toList = '"' :: s.toList.flatMap escapeChar ++ ['"'] := by
  simp [quoted]

/-- Two strings are equal when their JSON texts are. -/
theorem quoted_injective : Function.Injective quoted := by
  intro s t same
  have lists := congrArg String.toList same
  rw [toList_quoted, toList_quoted, List.append_cancel_right_eq, List.cons_inj_right] at lists
  exact String.toList_inj.mp (escape_injective lists)

theorem length_le_length_escape (cs : List Char) : cs.length ≤ (cs.flatMap escapeChar).length := by
  induction cs with
  | nil => simp
  | cons c cs ih =>
    have := List.length_pos_of_ne_nil (escapeChar_ne_nil c)
    rw [List.flatMap_cons, List.length_append, List.length_cons]
    omega

/-- The JSON text of a string is longer than the string. -/
theorem length_lt_length_quoted (s : String) : s.toList.length < (quoted s).toList.length := by
  have escaped := length_le_length_escape s.toList
  simp only [toList_quoted, List.length_append, List.length_cons, List.length_nil]
  omega

theorem quoted_ne (s : String) : quoted s ≠ s := by
  intro same
  have longer := length_lt_length_quoted s
  rw [same] at longer
  exact Nat.lt_irrefl _ longer

example : quoted "a\n" = "\"a\\n\"" := by decide

end SerdeJson
