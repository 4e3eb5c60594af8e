import Mathlib.Data.List.Basic
import Mathlib.Data.List.TakeWhile
import Mathlib.Tactic.Common
import UosTv.Lib.PrefixCode

/-!
Strings of the Rust standard library: UTF-8 bytes, `starts_with`, `strip_suffix`,
`strip_prefix`, `split_once`, `split`, `trim` and `String::from_utf8_lossy`.

A Rust `String` and a Lean `String` are both sequences of Unicode scalar values, so
prefixes and suffixes are taken on characters. `from_utf8_lossy` works on bytes and
is total: a byte sequence that no character encodes becomes U+FFFD, one for each
maximal invalid chunk. On the bytes of a string it is the identity.
-/

namespace Rust

/-- `str::as_bytes`: the UTF-8 encoding. -/
def asBytes (s : String) : List UInt8 := s.toList.flatMap String.utf8EncodeChar

theorem asBytes_append (s t : String) : asBytes (s ++ t) = asBytes s ++ asBytes t := by
  rw [asBytes, String.toList_append, List.flatMap_append]
  rfl

/-- `str::starts_with`. -/
def startsWith (s pre : String) : Bool := decide (pre.toList <+: s.toList)

/-- `str::strip_suffix`. -/
def stripSuffix (s suf : String) : Option String :=
  if suf.toList <:+ s.toList then
    some (String.ofList (s.toList.take (s.toList.length - suf.toList.length)))
  else none

/-- `str::strip_prefix`. -/
def stripPrefix (s pre : String) : Option String :=
  if pre.toList <+: s.toList then some (String.ofList (s.toList.drop pre.toList.length)) else none

/-- `str::split_once` at a character. -/
def splitOnce (s : String) (sep : Char) : Option (String × String) :=
  match s.toList.span fun c => c ≠ sep with
  | (_, []) => none
  | (before, _ :: after) => some (String.ofList before, String.ofList after)

/-- `str::split` at a character. -/
def split (s : String) (sep : Char) : List String := (s.toList.splitOn sep).map String.ofList

/-- `char::is_whitespace`: the property `White_Space` of Unicode. -/
def isWhitespace (c : Char) : Bool :=
  let n := c.toNat
  (9 ≤ n && n ≤ 13) || (0x2000 ≤ n && n ≤ 0x200A) ||
    [0x20, 0x85, 0xA0, 0x1680, 0x2028, 0x2029, 0x202F, 0x205F, 0x3000].contains n

/-- `str::trim`. -/
def trim (s : String) : String :=
  String.ofList (((s.toList.dropWhile isWhitespace).reverse.dropWhile isWhitespace).reverse)

/-- Splitting undoes putting together, for parts without the separator. -/
theorem split_intercalate {sep : Char} {parts : List String} (nonempty : parts ≠ [])
    (apart : ∀ part ∈ parts, sep ∉ part.toList) :
    split (String.intercalate (String.singleton sep) parts) sep = parts := by
  have lists : ∀ cs ∈ parts.map String.toList, sep ∉ cs := by
    simpa [List.forall_mem_map] using apart
  rw [split, String.toList_intercalate, String.toList_singleton,
    List.splitOn_intercalate sep lists (by simpa using nonempty), List.map_map]
  simp [Function.comp_def]

/-- `Path::join`. -/
def join (dir file : String) : String :=
  if startsWith file "/" then file
  else if dir = "" ∨ dir.toList.getLast? = some '/' then dir ++ file
  else dir ++ "/" ++ file

theorem suffix_join (dir file : String) : file.toList <:+ (join dir file).toList := by
  unfold join
  split
  · exact List.suffix_refl _
  · split
    · rw [String.toList_append]
      exact List.suffix_append _ _
    · rw [String.toList_append]
      exact List.suffix_append _ _

/-- Files of two names are different files. -/
theorem join_ne {dir dir' file file' : String} (other : ¬ file.toList <:+ file'.toList)
    (other' : ¬ file'.toList <:+ file.toList) : join dir file ≠ join dir' file' := by
  intro same
  have ends := suffix_join dir file
  rw [same] at ends
  rcases List.suffix_or_suffix_of_suffix ends (suffix_join dir' file') with one | one
  · exact other one
  · exact other' one

theorem eq_append_of_suffix {s suf : String} (ends : suf.toList <:+ s.toList) :
    ∃ pre, s = pre ++ suf := by
  obtain ⟨pre, split⟩ := ends
  refine ⟨String.ofList pre, String.toList_inj.mp ?_⟩
  rw [String.toList_append, String.toList_ofList, split]

theorem asBytes_suffix_join (dir file : String) : asBytes file <:+ asBytes (join dir file) := by
  obtain ⟨pre, split⟩ := eq_append_of_suffix (suffix_join dir file)
  rw [split, asBytes_append]
  exact List.suffix_append _ _

theorem suffix_append (pre suf : String) : suf.toList <:+ (pre ++ suf).toList := by
  rw [String.toList_append]
  exact List.suffix_append _ _

theorem startsWith_append (pre suf : String) : startsWith (pre ++ suf) pre = true := by
  rw [startsWith, decide_eq_true_iff, String.toList_append]
  exact List.prefix_append _ _

theorem stripSuffix_append (s suf : String) : stripSuffix (s ++ suf) suf = some s := by
  simp [stripSuffix, String.toList_append]

theorem stripSuffix_eq_none {s suf : String} (h : ¬ suf.toList <:+ s.toList) :
    stripSuffix s suf = none := if_neg h

theorem stripPrefix_append (pre s : String) : stripPrefix (pre ++ s) pre = some s := by
  simp [stripPrefix, String.toList_append]

/-! ### Splitting at the first separator -/

theorem splitOnce_of_not_mem {s : String} {sep : Char} (apart : sep ∉ s.toList) :
    splitOnce s sep = none := by
  have all : ∀ c ∈ s.toList, decide (c ≠ sep) = true := fun c mem =>
    decide_eq_true fun same => apart (same ▸ mem)
  rw [splitOnce, List.span_eq_takeWhile_dropWhile, List.dropWhile_eq_nil_iff.mpr all]

theorem splitOnce_append {name rest : String} {sep : Char} (apart : sep ∉ name.toList) :
    splitOnce (name ++ String.singleton sep ++ rest) sep = some (name, rest) := by
  have all : ∀ c ∈ name.toList, decide (c ≠ sep) = true := fun c mem =>
    decide_eq_true fun same => apart (same ▸ mem)
  rw [splitOnce, List.span_eq_takeWhile_dropWhile, String.toList_append, String.toList_append,
    String.toList_singleton, List.append_assoc, List.takeWhile_append_of_pos all,
    List.dropWhile_append_of_pos all]
  simp

/-! ### Lossy decoding -/

/-- A byte of the form `10xxxxxx`. -/
def isContinuation (b : UInt8) : Bool := 0x80 ≤ b && b ≤ 0xBF

/-- The second bytes that can follow a lead byte of a three- or four-byte sequence. -/
def secondOk (lead b : UInt8) : Bool :=
  if lead = 0xE0 then 0xA0 ≤ b && b ≤ 0xBF
  else if lead = 0xED then 0x80 ≤ b && b ≤ 0x9F
  else if lead = 0xF0 then 0x90 ≤ b && b ≤ 0xBF
  else if lead = 0xF4 then 0x80 ≤ b && b ≤ 0x8F
  else (0xE1 ≤ lead && lead ≤ 0xEF || 0xF1 ≤ lead && lead ≤ 0xF3) && isContinuation b

/-- Length of the invalid chunk at the head of bytes that no character starts:
the longest prefix that could still have become a character, and at least one byte. -/
def invalidLen : List UInt8 → Nat
  | lead :: second :: rest =>
    if !secondOk lead second then 1
    else if lead < 0xF0 then 2
    else if (rest.head?.map isContinuation).getD false then 3
    else 2
  | _ => 1

/-- The next character of the lossy decoding, and the bytes it accounts for. -/
def lossyHead (bytes : List UInt8) : Char × Nat :=
  match bytes.toByteArray.utf8DecodeChar? 0 with
  | some c => (c, c.utf8Size)
  | none => (Char.ofNat 0xFFFD, invalidLen bytes)

/-- Lossy decoding of at most `fuel` characters; `fuel` is the number of bytes. -/
def lossyChars : Nat → List UInt8 → List Char
  | 0, _ => []
  | _, [] => []
  | fuel + 1, b :: bs =>
    let head := lossyHead (b :: bs)
    head.1 :: lossyChars fuel ((b :: bs).drop head.2)

/-- `String::from_utf8_lossy(bytes).to_string()`. -/
def fromUtf8Lossy (bytes : List UInt8) : String := String.ofList (lossyChars bytes.length bytes)

theorem lossyHead_encode (c : Char) (rest : List UInt8) :
    lossyHead (String.utf8EncodeChar c ++ rest) = (c, c.utf8Size) := by
  unfold lossyHead
  rw [List.toByteArray_append, ByteArray.utf8DecodeChar?_utf8EncodeChar_append]

/-- The first character of some bytes, and the bytes after it. -/
def charHead (bytes : List UInt8) : Option (Char × List UInt8) :=
  if bytes = [] then none else some ((lossyHead bytes).1, bytes.drop (lossyHead bytes).2)

theorem reads_utf8EncodeChar : PrefixCode.Reads String.utf8EncodeChar charHead where
  nil := rfl
  append c rest := by
    have size := String.length_utf8EncodeChar c
    have some_byte : String.utf8EncodeChar c ++ rest ≠ [] := by
      intro empty
      have pos := c.utf8Size_pos
      rw [(List.append_eq_nil_iff.mp empty).1, List.length_nil] at size
      omega
    rw [charHead, if_neg some_byte, lossyHead_encode, ← size, List.drop_left]

theorem asBytes_isPrefix_iff {s t : String} : asBytes s <+: asBytes t ↔ s.toList <+: t.toList :=
  reads_utf8EncodeChar.flatMap_isPrefix_iff

theorem lossyChars_encode (cs : List Char) (fuel : Nat) (enough : cs.length ≤ fuel) :
    lossyChars fuel (cs.flatMap String.utf8EncodeChar) = cs := by
  induction cs generalizing fuel with
  | nil => cases fuel <;> rfl
  | cons c cs ih =>
    obtain ⟨fuel, rfl⟩ := Nat.exists_eq_succ_of_ne_zero (Nat.ne_of_gt (Nat.zero_lt_of_lt enough))
    have head := lossyHead_encode c (cs.flatMap String.utf8EncodeChar)
    have size := String.length_utf8EncodeChar c
    rw [List.flatMap_cons]
    cases bytes : String.utf8EncodeChar c ++ cs.flatMap String.utf8EncodeChar with
    | nil =>
      have pos := c.utf8Size_pos
      simp [List.append_eq_nil_iff.mp bytes] at size
      omega
    | cons b bs =>
      rw [bytes] at head
      simp only [lossyChars, head]
      rw [← bytes, ← size, List.drop_left, ih fuel (Nat.le_of_succ_le_succ enough)]

theorem length_le_length_asBytes (s : String) : s.toList.length ≤ (asBytes s).length := by
  unfold asBytes
  induction s.toList with
  | nil => simp
  | cons c cs ih =>
    have := c.utf8Size_pos
    rw [List.flatMap_cons, List.length_append, String.length_utf8EncodeChar, List.length_cons]
    omega

/-- The bytes of a string decode to that string. -/
@[simp] theorem fromUtf8Lossy_asBytes (s : String) : fromUtf8Lossy (asBytes s) = s := by
  have decoded : lossyChars (asBytes s).length (asBytes s) = s.toList :=
    lossyChars_encode _ _ (length_le_length_asBytes s)
  rw [fromUtf8Lossy, decoded, String.ofList_toList]

theorem exists_rest_of_decode {bytes : List UInt8} {c : Char}
    (decoded : bytes.toByteArray.utf8DecodeChar? 0 = some c) :
    bytes = String.utf8EncodeChar c ++ bytes.drop c.utf8Size := by
  obtain ⟨rest, whole⟩ := ByteArray.exists_of_utf8DecodeChar?_eq_some decoded
  have split := congrArg (fun b : ByteArray => b.data.toList) whole
  simp only [List.data_toByteArray, ByteArray.data_append, Array.toList_append] at split
  rw [split, ← String.length_utf8EncodeChar c, List.drop_left]

/-- A character that is not the replacement has been read from its own bytes. -/
theorem eq_append_of_lossyHead {bytes : List UInt8} (clean : (lossyHead bytes).1 ≠ Char.ofNat 0xFFFD) :
    bytes = String.utf8EncodeChar (lossyHead bytes).1 ++ bytes.drop (lossyHead bytes).2 := by
  unfold lossyHead at clean ⊢
  cases decoded : bytes.toByteArray.utf8DecodeChar? 0 with
  | none => rw [decoded] at clean; exact absurd rfl clean
  | some c => exact exists_rest_of_decode decoded

theorem flatMap_lossyChars {fuel : Nat} {bytes : List UInt8} (enough : bytes.length ≤ fuel)
    (clean : Char.ofNat 0xFFFD ∉ lossyChars fuel bytes) :
    (lossyChars fuel bytes).flatMap String.utf8EncodeChar = bytes := by
  induction fuel generalizing bytes with
  | zero =>
    rw [List.length_eq_zero_iff.mp (Nat.le_zero.mp enough)]
    rfl
  | succ fuel ih =>
    cases bytes with
    | nil => rfl
    | cons b bs =>
      simp only [lossyChars, List.mem_cons, not_or] at clean
      have head := eq_append_of_lossyHead (Ne.symm clean.1)
      have lengths := congrArg List.length head
      rw [List.length_append, String.length_utf8EncodeChar] at lengths
      have pos := (lossyHead (b :: bs)).1.utf8Size_pos
      rw [lossyChars, List.flatMap_cons, ih (by omega) clean.2, ← head]

/-- Without a replacement, what is read has the bytes that were given. -/
theorem asBytes_fromUtf8Lossy {bytes : List UInt8}
    (clean : Char.ofNat 0xFFFD ∉ (fromUtf8Lossy bytes).toList) :
    asBytes (fromUtf8Lossy bytes) = bytes := by
  rw [fromUtf8Lossy, String.toList_ofList] at clean
  rw [asBytes, fromUtf8Lossy, String.toList_ofList]
  exact flatMap_lossyChars (Nat.le_refl _) clean

example : fromUtf8Lossy [0x61, 0xE2, 0x82, 0x62, 0xFF] =
    String.ofList ['a', Char.ofNat 0xFFFD, 'b', Char.ofNat 0xFFFD] := by decide

end Rust
