import Mathlib.Tactic.IntervalCases
import UosTv.Rust.Result
import UosTv.Rust.Text

/-!
Hexadecimal text (the `hex` crate): `encode` writes lower case, `decode` reads both cases.
-/

namespace Rust

/-- Bytes, as in `Vec<u8>` and `&[u8]`. -/
abbrev Bytes := List UInt8

/-- `hex::FromHexError`, as far as `decode` returns it. -/
inductive FromHexError where
  | oddLength
  | invalidHexCharacter (byte : UInt8) (index : Nat)
deriving DecidableEq, Repr

def hexChar (digit : Nat) : Char := Char.ofNat (if digit < 10 then 48 + digit else 87 + digit)

/-- `hex::encode`. -/
def hexEncode (bytes : Bytes) : String :=
  String.ofList (bytes.flatMap fun b => [hexChar (b.toNat / 16), hexChar (b.toNat % 16)])

/-- The value of one digit, given as a byte. -/
def hexVal (index : Nat) (b : UInt8) : Except FromHexError Nat :=
  if 48 ≤ b.toNat ∧ b.toNat ≤ 57 then .ok (b.toNat - 48)
  else if 65 ≤ b.toNat ∧ b.toNat ≤ 70 then .ok (b.toNat - 55)
  else if 97 ≤ b.toNat ∧ b.toNat ≤ 102 then .ok (b.toNat - 87)
  else .error (.invalidHexCharacter b index)

/-- The digits from `index` on, two for a byte. -/
def hexDecodeFrom (index : Nat) : Bytes → Except FromHexError Bytes
  | hi :: lo :: rest => do
    let high ← hexVal index hi
    let low ← hexVal (index + 1) lo
    let bytes ← hexDecodeFrom (index + 2) rest
    pure (UInt8.ofNat (16 * high + low) :: bytes)
  | _ => pure []

/-- `hex::decode` of a text, given as its bytes. -/
def hexDecode (text : Bytes) : Except FromHexError Bytes :=
  if text.length % 2 ≠ 0 then .error .oddLength else hexDecodeFrom 0 text

/-! ### What is written is read -/

theorem utf8_hexChar {digit : Nat} (small : digit < 16) :
    ∃ b, String.utf8EncodeChar (hexChar digit) = [b] ∧ ∀ index, hexVal index b = .ok digit := by
  interval_cases digit <;> exact ⟨_, rfl, fun _ => rfl⟩

/-- The digits of a byte, as bytes of text. -/
theorem asBytes_hexEncode (bytes : Bytes) :
    asBytes (hexEncode bytes) = bytes.flatMap fun b =>
      String.utf8EncodeChar (hexChar (b.toNat / 16)) ++
        String.utf8EncodeChar (hexChar (b.toNat % 16)) := by
  simp [asBytes, hexEncode, List.flatMap_assoc]

theorem hexDecodeFrom_hexEncode (bytes : Bytes) (index : Nat) :
    hexDecodeFrom index (asBytes (hexEncode bytes)) = .ok bytes := by
  rw [asBytes_hexEncode]
  induction bytes generalizing index with
  | nil => rfl
  | cons b bytes ih =>
    have bound := b.toNat_lt
    obtain ⟨hi, hiText, hiVal⟩ := utf8_hexChar (show b.toNat / 16 < 16 by omega)
    obtain ⟨lo, loText, loVal⟩ := utf8_hexChar (show b.toNat % 16 < 16 by omega)
    have halves : 16 * (b.toNat / 16) + b.toNat % 16 = b.toNat := by omega
    simp only [List.flatMap_cons, hiText, loText, List.cons_append, List.nil_append,
      hexDecodeFrom, hiVal, loVal, ih]
    change Except.ok (UInt8.ofNat (16 * (b.toNat / 16) + b.toNat % 16) :: bytes) = _
    rw [halves, UInt8.ofNat_toNat]

theorem length_asBytes_hexEncode (bytes : Bytes) :
    (asBytes (hexEncode bytes)).length = 2 * bytes.length := by
  rw [asBytes_hexEncode]
  induction bytes with
  | nil => rfl
  | cons b bytes ih =>
    have bound := b.toNat_lt
    obtain ⟨hi, hiText, -⟩ := utf8_hexChar (show b.toNat / 16 < 16 by omega)
    obtain ⟨lo, loText, -⟩ := utf8_hexChar (show b.toNat % 16 < 16 by omega)
    rw [List.flatMap_cons, List.length_append, ih, hiText, loText, List.length_cons]
    simp only [List.length_append, List.length_cons, List.length_nil]
    omega

@[simp] theorem hexDecode_hexEncode (bytes : Bytes) :
    hexDecode (asBytes (hexEncode bytes)) = .ok bytes := by
  rw [hexDecode, length_asBytes_hexEncode, if_neg (by omega), hexDecodeFrom_hexEncode]

theorem length_of_hexDecodeFrom {text bytes : Bytes} {index : Nat} (even : text.length % 2 = 0)
    (read : hexDecodeFrom index text = .ok bytes) : text.length = 2 * bytes.length := by
  induction index, text using hexDecodeFrom.induct generalizing bytes with
  | case1 index hi lo rest ih =>
    rw [List.length_cons, List.length_cons] at even
    simp only [hexDecodeFrom, bind_eq_ok, pure_eq_ok] at read
    obtain ⟨high, -, low, -, others, read, rfl⟩ := read
    have length := ih (by omega) read
    rw [List.length_cons, List.length_cons, List.length_cons]
    omega
  | case2 text index short =>
    cases text with
    | nil =>
      cases read
      rfl
    | cons hi text =>
      cases text with
      | nil => cases even
      | cons lo rest => exact absurd rfl (short hi lo rest)

theorem length_of_hexDecode {text bytes : Bytes} (read : hexDecode text = .ok bytes) :
    text.length = 2 * bytes.length := by
  unfold hexDecode at read
  split at read
  · cases read
  · exact length_of_hexDecodeFrom (not_not.mp ‹_›) read

theorem hexEncode_injective : Function.Injective hexEncode := by
  intro bytes bytes' same
  have read := hexDecode_hexEncode bytes
  rw [same, hexDecode_hexEncode] at read
  exact (Except.ok.inj read).symm

theorem length_hexEncode (bytes : Bytes) : (hexEncode bytes).toList.length = 2 * bytes.length := by
  induction bytes with
  | nil => rfl
  | cons b bytes ih =>
    simp only [hexEncode, String.toList_ofList, List.flatMap_cons, List.length_append] at *
    rw [ih]
    simp only [List.length_cons, List.length_nil]
    omega

example : hexEncode [0x0A, 0xff] = "0aff" := by decide

end Rust
