import UosTv.Serde.Transcode
import UosTv.Stardust.Params

/-!
The format of parameters, which `parse_params_to_value` has to guess.

Parameters are taken for JSON if they can be read so. The CBOR of a few negative integers is
that of digits, and that of a few strings the text of a literal with white space; these are
read as other values. All other values without fractions are read from both formats, unless
they are nested too deeply for `serde_json` (`parse_exact_iff`).
-/

namespace Stardust

open Ciborium (Item encode InMemory argument head info width)
open Rust SerdeJson

/-- `serde_json::from_slice` and `ciborium::de::from_reader`. The first byte of an item tells a
byte string and a text. -/
structure Readers extends SliceReader, Ciborium.Reader where
  kind {b : UInt8} {rest : Bytes} {item : Item} (read : fromReader (b :: rest) = .ok item) :
    (b.toNat / 32 = 2 → ∃ bs, item = .bytes bs) ∧ (b.toNat / 32 = 3 → ∃ s, item = .text s)

/-- `parse_params_to_value`. -/
def Readers.parseParamsToValue (readers : Readers) (params : Bytes) : Value :=
  match readers.fromSlice params with
  | .ok v => v
  | .error _ =>
    match readers.fromReader params with
    | .ok item => (toValue item).getD .null
    | .error _ => .null

/-- The values whose CBOR is the JSON of another value. -/
inductive Mistaken (readers : Readers) : Value → Prop
  | negative {n : Int64} {k : Nat} (value : n.toInt = -1 - k) (digit : 16 ≤ k) (short : k < 2 ^ 16)
    (tail : numberTail (argument k)) : Mistaken readers (.number (.negInt n))
  | literal {word : String} {spaces : List Char}
    (known : (word, spaces.length) ∈ [("alse", 2), ("ull", 11), ("rue", 17)])
    (blank : spaces.all isSpace) : Mistaken readers (.string (word ++ String.ofList spaces))
  | long {s : String} (length : 2 ^ 32 ≤ (asBytes s).length)
    (text : ∃ v, readers.fromSlice (encode (.text s)) = .ok v) : Mistaken readers (.string s)

variable {readers : Readers} {v w : Value} {b : UInt8} {rest : Bytes}

/-- The function is the one over given formats. -/
theorem parseParamsToValue_eq {formats : Formats} (slices : formats.fromSlice = readers.fromSlice)
    (cbor : ∀ params, formats.fromCbor params = (readers.fromReader params).toOption.bind toValue) :
    formats.parseParamsToValue = readers.parseParamsToValue := by
  funext params
  unfold Formats.parseParamsToValue Readers.parseParamsToValue
  rw [slices, cbor]
  cases readers.fromSlice params with
  | ok v => rfl
  | error e => cases readers.fromReader params <;> rfl

theorem parse_of_ok {params : Bytes} (read : readers.fromSlice params = .ok v) :
    readers.parseParamsToValue params = v := by
  rw [Readers.parseParamsToValue, read]

theorem parse_of_refused {params : Bytes} (refused : ∀ w, readers.fromSlice params ≠ .ok w) :
    readers.parseParamsToValue params =
      match readers.fromReader params with
      | .ok item => (toValue item).getD .null
      | .error _ => .null := by
  unfold Readers.parseParamsToValue
  cases read : readers.fromSlice params with
  | ok w => exact absurd read (refused w)
  | error e => rfl

/-! ### JSON -/

theorem depthItems_numbers (bs : Bytes) :
    depthItems (bs.map fun b => .number (.posInt b.toUInt64)) = 0 := by
  induction bs with
  | nil => rfl
  | cons b bs ih => rw [List.map_cons, depthItems, ih, depth, Nat.max_self]

/-- What begins as a JSON array or object and is not one is no nested value. -/
theorem depth_parse_le (refused : ∀ w, readers.fromSlice (b :: rest) ≠ .ok w)
    (bracket : b.toNat = 0x5B ∨ b.toNat = 0x7B) :
    depth (readers.parseParamsToValue (b :: rest)) ≤ 1 := by
  rw [parse_of_refused refused]
  cases read : readers.fromReader (b :: rest) with
  | error e => exact Nat.zero_le _
  | ok item =>
    rcases bracket with array | object
    · obtain ⟨bs, rfl⟩ := (readers.kind read).1 (by omega)
      change depthItems _ + 1 ≤ 1
      rw [depthItems_numbers]
    · obtain ⟨s, rfl⟩ := (readers.kind read).2 (by omega)
      exact Nat.zero_le _

/-- The JSON of a value is read as the value unless it is nested too deeply. -/
theorem parse_json_iff (canonical : Canonical v) :
    readers.parseParamsToValue (utf8 (print v)) = v ↔ depth v ≤ 127 := by
  have renders := (renders_print canonical).item_of_value
  constructor
  · intro read
    by_contra deep
    obtain ⟨e, error⟩ := readers.fromSlice_of_deep renders (Nat.lt_of_not_le deep)
    have refused : ∀ w, readers.fromSlice (utf8 (print v)) ≠ .ok w := by
      intro w ok
      cases error.symm.trans ok
    have shallow : depth (readers.parseParamsToValue (utf8 (print v))) ≤ 1 := by
      cases v with
      | array vs =>
        have text : print (.array vs) = '[' :: (printItems vs ++ [']']) := rfl
        rw [text, utf8_cons (by decide)] at refused ⊢
        exact depth_parse_le refused (.inl rfl)
      | object es =>
        have text : print (.object es) = '\x7b' :: (printEntries es ++ ['\x7d']) := rfl
        rw [text, utf8_cons (by decide)] at refused ⊢
        exact depth_parse_le refused (.inr rfl)
      | null => exact absurd (Nat.zero_le _) deep
      | bool b => exact absurd (Nat.zero_le _) deep
      | number n => exact absurd (Nat.zero_le _) deep
      | string s => exact absurd (Nat.zero_le _) deep
    rw [read] at shallow
    omega
  · intro shallow
    exact parse_of_ok (readers.fromSlice_of_renders renders shallow)

/-! ### CBOR that is read as JSON -/

/-- The first bytes of JSON texts. -/
theorem first_of_begins {first : Nat} (begins : Begins rest first v) :
    first = 0x22 ∨ first = 0x2D ∨ (48 ≤ first ∧ first ≤ 57) ∨ first = 0x5B ∨ first = 0x66 ∨
      first = 0x6E ∨ first = 0x74 ∨ first = 0x7B := by
  cases begins with
  | number digit tail positive => exact .inr (.inr (.inl digit))
  | _ => simp

theorem not_isBlank (high : 33 ≤ b.toNat ∨ 24 ≤ b.toNat ∧ b.toNat ≤ 27) : isBlank b = false := by
  by_contra white
  simp only [Bool.not_eq_false, isBlank, decide_eq_true_eq] at white
  rcases white with rfl | rfl | rfl | rfl <;> revert high <;> decide

theorem head_of_lt {major n : Nat} (small : n < 24) : head major n = [.ofNat (32 * major + n)] := by
  rw [head, argument, Ciborium.info_of_lt small, width, if_pos small]
  rfl

/-- What begins with the head of an item, one byte or more. -/
theorem begins_of_head {major n : Nat} (valid : major < 8)
    (read : readers.fromSlice (head major n ++ rest) = .ok v)
    (solid : 33 ≤ 32 * major + info n ∨ 24 ≤ 32 * major + info n ∧ 32 * major + info n ≤ 27) :
    Begins (argument n ++ rest) (32 * major + info n) v := by
  have first := @Ciborium.toNat_first n major valid
  rw [← first] at solid
  rw [← first]
  exact readers.begins_cons read (not_isBlank solid)

/-- Arrays, maps and simple values are no JSON. -/
theorem refused_of_major {major n : Nat} (valid : major < 8) (large : 4 ≤ major) :
    readers.fromSlice (head major n ++ rest) ≠ .ok v := by
  intro read
  have first := first_of_begins (begins_of_head valid read (.inl (by omega)))
  omega

/-- Nor are integers that are not negative. -/
theorem refused_of_unsigned {n : UInt64} : readers.fromSlice (encode (.unsigned n)) ≠ .ok v := by
  intro read
  rw [encode] at read
  by_cases small : n.toNat < 24
  · rw [head_of_lt small] at read
    obtain ⟨digit, -⟩ := SliceReader.begins_single read
    rw [UInt8.toNat_ofNat_of_lt' (by simp only [UInt8.size]; omega)] at digit
    omega
  · have least := Ciborium.le_info (Nat.le_of_not_lt small)
    have most := Ciborium.info_le n.toNat
    rw [← List.append_nil (head _ _)] at read
    have first := first_of_begins (begins_of_head (by decide) read (.inr (by omega)))
    omega

/-- A negative integer that is read as JSON. -/
theorem begins_of_negative {n : UInt64} (read : readers.fromSlice (encode (.negative n)) = .ok v) :
    (16 ≤ n.toNat ∧ n.toNat < 2 ^ 16) ∧ numberTail (argument n.toNat) ∧
      ∃ m, v = .number m ∧ ∀ k, m ≠ .negInt k := by
  rw [encode] at read
  by_cases small : n.toNat < 24
  · have none : argument n.toNat = [] := by
      have whole := @head_of_lt 1 n.toNat small
      exact (List.cons.inj whole).2
    rw [head_of_lt small] at read
    obtain ⟨digit, begins⟩ := SliceReader.begins_single read
    rw [UInt8.toNat_ofNat_of_lt' (by simp only [UInt8.size]; omega)] at digit begins
    rw [none]
    exact ⟨by omega, begins.number_of_digit digit⟩
  · have least := Ciborium.le_info (Nat.le_of_not_lt small)
    have most := Ciborium.info_le n.toNat
    rw [← List.append_nil (head _ _)] at read
    have begins := begins_of_head (by decide) read (.inl (by omega))
    rw [List.append_nil] at begins
    have first := first_of_begins begins
    have bound : n.toNat < 2 ^ 16 := by
      by_contra large
      have wide : 26 ≤ info n.toNat := by
        unfold info
        split_ifs <;> omega
      omega
    exact ⟨by omega, begins.number_of_digit (by omega)⟩

theorem eq_info {n : Nat} (small : info n < 24) : n = info n := by
  unfold info at *
  split_ifs at * <;> omega

/-- A string that is a word with white space behind it. -/
theorem literal_of_bytes {s word : String} {blank : Bytes}
    (same : asBytes s = utf8 word.toList ++ blank) (blanks : blank.all isBlank) :
    ∃ spaces, s = word ++ String.ofList spaces ∧ spaces.all isSpace ∧ spaces.length = blank.length := by
  obtain ⟨spaces, rfl, white, length⟩ := exists_spaces blanks
  refine ⟨spaces, ?_, white, length⟩
  have text : utf8 s.toList = utf8 (word.toList ++ spaces) := by
    rw [utf8_append, ← same, utf8, String.ofList_toList]
  have chars := utf8_injective text
  rw [← String.toList_inj, chars, String.toList_append, String.toList_ofList]

/-- A string that is read as a literal. -/
theorem mistaken_literal {s word : String} {blank : Bytes} {count : Nat}
    (small : info (asBytes s).length = (utf8 word.toList).length + count)
    (short : (utf8 word.toList).length + count < 24)
    (known : (word, count) ∈ [("alse", 2), ("ull", 11), ("rue", 17)])
    (same : argument (asBytes s).length ++ asBytes s = utf8 word.toList ++ blank)
    (blanks : blank.all isBlank) : Mistaken readers (.string s) := by
  have length := eq_info (small ▸ short)
  have none : argument (asBytes s).length = [] := by
    have whole := @head_of_lt 1 (asBytes s).length (by omega)
    exact (List.cons.inj whole).2
  rw [none, List.nil_append] at same
  have sum := congrArg List.length same
  rw [List.length_append] at sum
  obtain ⟨spaces, rfl, white, count'⟩ := literal_of_bytes same blanks
  have all : spaces.length = count := by omega
  exact .literal (all ▸ known) white

/-- A string that is read as JSON. -/
theorem mistaken_of_text {s : String} (read : readers.fromSlice (encode (.text s)) = .ok v) :
    Mistaken readers (.string s) ∧ ∀ t, v ≠ .string t := by
  have whole := read
  rw [encode] at read
  have begins := begins_of_head (by decide) read (.inl (by omega))
  generalize first : 32 * 3 + info (asBytes s).length = byte at begins
  cases begins with
  | null word blanks =>
    have small : info (asBytes s).length = (utf8 "ull".toList).length + 11 := by
      change _ = 14
      omega
    exact ⟨mistaken_literal small (by decide) (by simp) word blanks, by rintro _ ⟨⟩⟩
  | true word blanks =>
    have small : info (asBytes s).length = (utf8 "rue".toList).length + 17 := by
      change _ = 20
      omega
    exact ⟨mistaken_literal small (by decide) (by simp) word blanks, by rintro _ ⟨⟩⟩
  | false word blanks =>
    have small : info (asBytes s).length = (utf8 "alse".toList).length + 2 := by
      change _ = 6
      omega
    exact ⟨mistaken_literal small (by decide) (by simp) word blanks, by rintro _ ⟨⟩⟩
  | object es more =>
    have long : 2 ^ 32 ≤ (asBytes s).length := by
      by_contra short
      have narrow : info (asBytes s).length ≤ 26 := by
        unfold info
        split_ifs <;> omega
      omega
    exact ⟨.long long ⟨_, whole⟩, by rintro _ ⟨⟩⟩
  | number digit tail positive => omega
  | minus n more => omega
  | string t more => omega
  | array vs more => omega

/-- The item of a negative integer. -/
theorem toItem_negative {n : Int64} {k : Nat} (value : n.toInt = -1 - k) :
    ∃ m : UInt64, toItem (.number (.negInt n)) = .negative m ∧ m.toNat = k := by
  have number : (-1 - n.toInt).toNat = k := by omega
  refine ⟨_, rfl, ?_⟩
  rw [(toNat_negative (by omega)).1, number]

/-- What is read as JSON is mistaken, and is read as something else. -/
theorem mistaken_of_read (canonical : Canonical v)
    (read : readers.fromSlice (encode (toItem v)) = .ok w) : Mistaken readers v ∧ w ≠ v := by
  cases canonical with
  | null => exact absurd read (refused_of_major (by decide) (by decide))
  | bool b =>
    cases b with
    | true => exact absurd read (refused_of_major (by decide) (by decide))
    | false => exact absurd read (refused_of_major (by decide) (by decide))
  | posInt n => exact absurd read refused_of_unsigned
  | negInt n below =>
    have value : n.toInt = -1 - ((-1 - n.toInt).toNat : Nat) := by omega
    obtain ⟨m, item, number⟩ := toItem_negative value
    rw [item] at read
    obtain ⟨range, tail, m', rfl, positive⟩ := begins_of_negative read
    rw [number] at range tail
    refine ⟨.negative value range.1 range.2 tail, ?_⟩
    rintro ⟨⟩
    exact positive n rfl
  | string s =>
    obtain ⟨mistaken, other⟩ := mistaken_of_text read
    exact ⟨mistaken, other s⟩
  | array items =>
    rw [toItem, encode] at read
    exact absurd read (refused_of_major (by decide) (by decide))
  | object sorted entries =>
    rw [toItem, encode] at read
    exact absurd read (refused_of_major (by decide) (by decide))

/-- The head of a string as the first letter of a literal. -/
theorem read_literal {c : Char} {word : String} {spaces : List Char}
    (renders : Renders (.value v) (c :: word.toList)) (shallow : depth v ≤ 127)
    (blank : spaces.all isSpace) (plain : (utf8 word.toList).length = word.toList.length)
    (small : word.toList.length + spaces.length < 24)
    (first : c.toNat = 96 + (word.toList.length + spaces.length)) :
    readers.fromSlice (encode (.text (word ++ String.ofList spaces))) = .ok v := by
  have bytes : asBytes (word ++ String.ofList spaces) = utf8 (word.toList ++ spaces) := by
    rw [utf8, String.ofList_append, String.ofList_toList]
  have length : (utf8 (word.toList ++ spaces)).length = word.toList.length + spaces.length := by
    rw [utf8_append, List.length_append, plain, length_utf8_spaces blank]
  have whole : encode (.text (word ++ String.ofList spaces)) = utf8 (c :: (word.toList ++ spaces)) := by
    rw [encode, bytes, length, head_of_lt small, utf8_cons (by omega), first, List.singleton_append]
  rw [whole]
  have item : Renders (.item v) ([] ++ ((c :: word.toList) ++ spaces)) := .item rfl renders blank
  exact readers.fromSlice_of_renders item shallow

/-- The first byte of a negative integer that is a digit, and how many bytes follow it. -/
theorem info_of_digit {k : Nat} (digit : 16 ≤ k) (short : k < 2 ^ 16) :
    (16 ≤ info k ∧ info k ≤ 25) ∧ (info k = 16 → argument k = []) ∧ (argument k).length ≤ 2 := by
  have length : (argument k).length = width (info k) := Ciborium.length_bigEndian _ _
  by_cases small : k < 24
  · have none : argument k = [] := (List.cons.inj (@head_of_lt 1 k small)).2
    rw [none, Ciborium.info_of_lt small]
    exact ⟨by omega, fun _ => rfl, Nat.zero_le _⟩
  · have wide : info k = 24 ∨ info k = 25 := by
      unfold info
      split_ifs <;> omega
    rw [length]
    rcases wide with one | two
    · rw [one]
      exact ⟨by decide, by rintro ⟨⟩, by decide⟩
    · rw [two]
      exact ⟨by decide, by rintro ⟨⟩, by decide⟩

/-- A mistaken value is read as JSON. -/
theorem read_of_mistaken (mistaken : Mistaken readers v) :
    ∃ w, readers.fromSlice (encode (toItem v)) = .ok w := by
  cases mistaken with
  | @negative n k value digit short tail =>
    obtain ⟨m, item, rfl⟩ := toItem_negative value
    obtain ⟨range, alone, length⟩ := info_of_digit digit short
    have first := @Ciborium.toNat_first m.toNat 1 (by decide)
    rw [item, encode, head]
    apply readers.fromSlice_of_number _ tail _ length
    · exact decide_eq_true (by omega)
    · by_cases zero : info m.toNat = 16
      · exact .inr (alone zero)
      · refine .inl fun same => zero ?_
        rw [same] at first
        change 48 = _ at first
        omega
  | @literal word spaces known blank =>
    simp only [List.mem_cons, List.not_mem_nil, or_false, Prod.mk.injEq] at known
    rw [toItem]
    rcases known with ⟨rfl, count⟩ | ⟨rfl, count⟩ | ⟨rfl, count⟩
    · exact ⟨_, read_literal (c := 'f') .false (Nat.zero_le _) blank rfl (by rw [count]; decide)
        (by rw [count]; decide)⟩
    · exact ⟨_, read_literal (c := 'n') .null (Nat.zero_le _) blank rfl (by rw [count]; decide)
        (by rw [count]; decide)⟩
    · exact ⟨_, read_literal (c := 't') .true (Nat.zero_le _) blank rfl (by rw [count]; decide)
        (by rw [count]; decide)⟩
  | long length text => exact text

/-- What a JSON value is read as from its JSON and its CBOR. -/
theorem parse_exact_iff (canonical : Canonical v) (inMemory : InMemory (toItem v)) :
    (readers.parseParamsToValue (utf8 (print v)) = v ∧
      readers.parseParamsToValue (encode (toItem v)) = v ∧
      ∀ w, readers.fromSlice (encode (toItem v)) = .ok w → w = v) ↔
      depth v ≤ 127 ∧ ¬ Mistaken readers v := by
  rw [parse_json_iff canonical]
  constructor
  · rintro ⟨shallow, -, same⟩
    refine ⟨shallow, fun mistaken => ?_⟩
    obtain ⟨w, read⟩ := read_of_mistaken mistaken
    exact (mistaken_of_read canonical read).2 (same w read)
  · rintro ⟨shallow, clear⟩
    have refused : ∀ w, readers.fromSlice (encode (toItem v)) ≠ .ok w := fun w read =>
      clear (mistaken_of_read canonical read).1
    refine ⟨shallow, ?_, fun w read => absurd read (refused w)⟩
    have within : Ciborium.levels (toItem v) ≤ 256 := by
      rw [levels_toItem canonical]
      omega
    rw [parse_of_refused refused, readers.fromReader_encode inMemory within]
    change (toValue (toItem v)).getD .null = v
    rw [toValue_toItem canonical, Option.getD_some]

/-- The readers of both formats. -/
def textReaders : Readers :=
  { textReader, Ciborium.definiteReader with kind := Ciborium.kind_of_definiteReader }

/-- The integer -25, of which no digit is made. -/
theorem parse_exact_iff_sample :
    textReaders.parseParamsToValue (utf8 "-25".toList) = .number (.negInt (-25)) ∧
      textReaders.parseParamsToValue [0x38, 24] = .number (.negInt (-25)) := by
  have exactly := (@parse_exact_iff textReaders _ (.negInt (-25) (by decide)) (.negative _)).mpr
    ⟨Nat.zero_le _, ?_⟩
  · exact ⟨exactly.1, exactly.2.1⟩
  · rintro (@⟨n, k, value, digit, short, tail⟩)
    have number : k = 24 := by
      change (-25 : Int) = _ at value
      omega
    rw [number] at tail
    revert tail
    decide

/-- The integer -17 is read as zero, and a string of six characters as `false`. -/
theorem minus_seventeen_mistaken :
    encode (toItem (.number (.negInt (-17)))) = [0x30] ∧
      textReaders.parseParamsToValue [0x30] = .number (.posInt 0) ∧
      textReaders.parseParamsToValue (encode (toItem (.string "alse  "))) = .bool false := by
  refine ⟨?_, ?_, ?_⟩
  · decide
  · rfl
  · rfl

end Stardust
