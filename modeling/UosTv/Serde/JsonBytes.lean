import UosTv.Rust.Hex
import UosTv.Serde.JsonReader

/-!
`serde_json::from_slice`: JSON texts as bytes.

What is assumed of it (`SliceReader`) is that it reads every text that renders a value, unless
the value is nested too deeply, and numbers with a fraction or an exponent; and that what it
reads begins as JSON texts do (`Begins`).
-/

namespace SerdeJson

open Rust

/-! ### Bytes of a text -/

/-- White space. -/
def isBlank (b : UInt8) : Bool := b = 0x20 ∨ b = 0x0A ∨ b = 0x09 ∨ b = 0x0D

def isDigitByte (b : UInt8) : Bool := 48 ≤ b.toNat ∧ b.toNat ≤ 57

/-- What follows one or more digits. -/
def afterDigits (bs : Bytes) : Option Bytes :=
  match bs.takeWhile isDigitByte with
  | [] => none
  | _ => some (bs.dropWhile isDigitByte)

/-- The digits of an exponent, after a sign or not, and white space. -/
def exponentTail (bs : Bytes) : Bool :=
  let digits := match bs with
    | [] => []
    | b :: rest => if b = 0x2B ∨ b = 0x2D then rest else b :: rest
  match afterDigits digits with
  | none => false
  | some rest => rest.all isBlank

/-- What may follow the digits of a fraction or an integer: an exponent, or white space. -/
def exponentOrBlank (bs : Bytes) : Bool :=
  match bs with
  | [] => true
  | b :: rest => if b = 0x65 ∨ b = 0x45 then exponentTail rest else (b :: rest).all isBlank

/-- The rest of a number behind its first digit, and white space. -/
def numberTail (bs : Bytes) : Bool :=
  match bs.dropWhile isDigitByte with
  | [] => true
  | b :: rest =>
    if b = 0x2E then
      match afterDigits rest with
      | none => false
      | some rest => exponentOrBlank rest
    else exponentOrBlank (b :: rest)

/-- The bytes of a text. -/
def utf8 (cs : List Char) : Bytes := asBytes (String.ofList cs)

/-! ### Nesting -/

mutual

/-- How deep arrays and objects are nested. -/
def depth : Value → Nat
  | .array vs => depthItems vs + 1
  | .object es => depthEntries es + 1
  | .null | .bool _ | .number _ | .string _ => 0

def depthItems : List Value → Nat
  | [] => 0
  | v :: vs => max (depth v) (depthItems vs)

def depthEntries : List (String × Value) → Nat
  | [] => 0
  | (_, v) :: es => max (depth v) (depthEntries es)

end

/-! ### What is read -/

/-- What a text can be read as, given its first byte and the bytes behind it. -/
inductive Begins (rest : Bytes) : Nat → Value → Prop
  | null {blank : Bytes} (word : rest = utf8 "ull".toList ++ blank) (blanks : blank.all isBlank) :
    Begins rest 0x6E .null
  | true {blank : Bytes} (word : rest = utf8 "rue".toList ++ blank) (blanks : blank.all isBlank) :
    Begins rest 0x74 (.bool true)
  | false {blank : Bytes} (word : rest = utf8 "alse".toList ++ blank) (blanks : blank.all isBlank) :
    Begins rest 0x66 (.bool false)
  | number {b : Nat} {n : Number} (digit : 48 ≤ b ∧ b ≤ 57) (tail : numberTail rest)
    (positive : ∀ k, n ≠ .negInt k) : Begins rest b (.number n)
  | minus (n : Number) (more : rest ≠ []) : Begins rest 0x2D (.number n)
  | string (s : String) (more : rest ≠ []) : Begins rest 0x22 (.string s)
  | array (vs : List Value) (more : rest ≠ []) : Begins rest 0x5B (.array vs)
  | object (es : List (String × Value)) (more : rest ≠ []) : Begins rest 0x7B (.object es)

theorem Begins.of_solid {blank others rest : Bytes} {b c : UInt8} {v : Value}
    (begins : Begins others c.toNat v) (split : b :: rest = blank ++ c :: others)
    (blanks : blank.all isBlank) (solid : isBlank b = Bool.false) : Begins rest b.toNat v := by
  cases blank with
  | nil =>
    obtain ⟨rfl, rfl⟩ := List.cons.inj split
    exact begins
  | cons first blank =>
    obtain ⟨rfl, -⟩ := List.cons.inj split
    rw [List.all_cons, solid] at blanks
    cases blanks

/-- What begins with a digit is a number. -/
theorem Begins.number_of_digit {rest : Bytes} {b : Nat} {v : Value} (begins : Begins rest b v)
    (digit : 48 ≤ b ∧ b ≤ 57) :
    numberTail rest = Bool.true ∧ ∃ n, v = .number n ∧ ∀ k, n ≠ .negInt k := by
  cases begins with
  | number _ tail positive => exact ⟨tail, _, rfl, positive⟩
  | null _ _ => omega
  | true _ _ => omega
  | false _ _ => omega
  | minus _ _ => omega
  | string _ _ => omega
  | array _ _ => omega
  | object _ _ => omega

theorem isBlank_of_isDigitByte {b : UInt8} (digit : isDigitByte b) : isBlank b = Bool.false := by
  by_contra white
  simp only [Bool.not_eq_false, isBlank, decide_eq_true_eq] at white
  rcases white with rfl | rfl | rfl | rfl <;> cases digit

/-- `serde_json::from_slice` of a value, which reads 127 levels and no more. -/
structure SliceReader where
  fromSlice : Bytes → Except String Value
  fromSlice_of_renders {v : Value} {cs : List Char} (renders : Renders (.item v) cs)
    (shallow : depth v ≤ 127) : fromSlice (utf8 cs) = .ok v
  fromSlice_of_deep {v : Value} {cs : List Char} (renders : Renders (.item v) cs)
    (deep : 127 < depth v) : ∃ e, fromSlice (utf8 cs) = .error e
  fromSlice_of_number {b : UInt8} {rest : Bytes} (digit : isDigitByte b) (tail : numberTail rest)
    (leading : b ≠ 0x30 ∨ rest = []) (short : rest.length ≤ 2) : ∃ v, fromSlice (b :: rest) = .ok v
  begins {bs : Bytes} {v : Value} (read : fromSlice bs = .ok v) :
    ∃ blank b rest, bs = blank ++ b :: rest ∧ blank.all isBlank ∧ Begins rest b.toNat v

namespace SliceReader

variable {reader : SliceReader} {b : UInt8} {rest : Bytes} {v : Value}

/-- A text that does not begin with white space begins at once. -/
theorem begins_cons (read : reader.fromSlice (b :: rest) = .ok v) (solid : isBlank b = false) :
    Begins rest b.toNat v := by
  obtain ⟨blank, c, others, split, blanks, begins⟩ := reader.begins read
  exact begins.of_solid split blanks solid

/-- A text of one byte is a digit. -/
theorem begins_single (read : reader.fromSlice [b] = .ok v) :
    (48 ≤ b.toNat ∧ b.toNat ≤ 57) ∧ Begins [] b.toNat v := by
  obtain ⟨blank, c, others, split, -, begins⟩ := reader.begins read
  obtain ⟨rfl, rest⟩ := List.append_eq_singleton_iff.mp split.symm |>.resolve_right (by simp)
  obtain ⟨rfl, rfl⟩ := List.cons.inj rest
  refine ⟨?_, begins⟩
  generalize c.toNat = first at begins
  cases begins with
  | number digit tail positive => exact digit
  | null word blanks => simp [utf8, asBytes] at word
  | true word blanks => simp [utf8, asBytes] at word
  | false word blanks => simp [utf8, asBytes] at word
  | minus n more => exact absurd rfl more
  | string s more => exact absurd rfl more
  | array vs more => exact absurd rfl more
  | object es more => exact absurd rfl more

end SliceReader

/-! ### A reader -/

section Texts

variable {c : Char} {cs ds spaces rest : List Char}

theorem utf8_append (cs ds : List Char) : utf8 (cs ++ ds) = utf8 cs ++ utf8 ds := by
  rw [utf8, String.ofList_append, asBytes_append]
  rfl

theorem utf8_injective : Function.Injective utf8 := by
  intro cs ds same
  have read := congrArg fromUtf8Lossy same
  rw [utf8, utf8, fromUtf8Lossy_asBytes, fromUtf8Lossy_asBytes] at read
  simpa using congrArg String.toList read

theorem utf8_eq_nil : utf8 cs = [] ↔ cs = [] :=
  ⟨fun none => utf8_injective none, fun none => none ▸ rfl⟩

theorem utf8_cons (ascii : c.toNat < 128) : utf8 (c :: cs) = .ofNat c.toNat :: utf8 cs := by
  have single : String.utf8EncodeChar c = [.ofNat c.toNat] := by
    unfold String.utf8EncodeChar
    exact if_pos (Nat.le_of_lt_succ ascii)
  rw [utf8, asBytes, String.toList_ofList, List.flatMap_cons, single, List.singleton_append]
  simp [utf8, asBytes]

theorem toNat_first (ascii : c.toNat < 128) : (UInt8.ofNat c.toNat).toNat = c.toNat :=
  UInt8.toNat_ofNat_of_lt' (by simp only [UInt8.size]; omega)

theorem ascii_of_isSpace (space : isSpace c) : c.toNat < 128 := by
  simp only [isSpace, decide_eq_true_eq] at space
  rcases space with rfl | rfl | rfl | rfl <;> decide

/-- Spaces are bytes that are blank. -/
theorem all_isBlank (blank : spaces.all isSpace) : (utf8 spaces).all isBlank := by
  induction spaces with
  | nil => rfl
  | cons c spaces ih =>
    rw [List.all_cons, Bool.and_eq_true] at blank
    obtain ⟨space, blank⟩ := blank
    rw [utf8_cons (ascii_of_isSpace space), List.all_cons, Bool.and_eq_true]
    refine ⟨?_, ih blank⟩
    simp only [isSpace, decide_eq_true_eq] at space
    rcases space with rfl | rfl | rfl | rfl <;> decide

theorem length_utf8_spaces (blank : spaces.all isSpace) : (utf8 spaces).length = spaces.length := by
  induction spaces with
  | nil => rfl
  | cons c spaces ih =>
    rw [List.all_cons, Bool.and_eq_true] at blank
    rw [utf8_cons (ascii_of_isSpace blank.1), List.length_cons, List.length_cons, ih blank.2]

theorem exists_spaces {blank : Bytes} (blanks : blank.all isBlank) :
    ∃ spaces, blank = utf8 spaces ∧ spaces.all isSpace ∧ spaces.length = blank.length := by
  induction blank with
  | nil => exact ⟨[], rfl, rfl, rfl⟩
  | cons b blank ih =>
    rw [List.all_cons, Bool.and_eq_true] at blanks
    obtain ⟨spaces, rfl, all, length⟩ := ih blanks.2
    have space : ∃ c : Char, c.toNat < 128 ∧ b = .ofNat c.toNat ∧ isSpace c := by
      have white := blanks.1
      simp only [isBlank, decide_eq_true_eq] at white
      rcases white with rfl | rfl | rfl | rfl
      · exact ⟨' ', by decide⟩
      · exact ⟨'\n', by decide⟩
      · exact ⟨'\t', by decide⟩
      · exact ⟨'\r', by decide⟩
    obtain ⟨c, ascii, rfl, white⟩ := space
    refine ⟨c :: spaces, (utf8_cons ascii).symm, ?_, ?_⟩
    · rw [List.all_cons, white, all]
      rfl
    · rw [List.length_cons, List.length_cons, length]

theorem toNat_of_isDigit (digit : c.isDigit = true) : 48 ≤ c.toNat ∧ c.toNat ≤ 57 :=
  Char.isDigit_iff_toNat.mp digit

theorem all_isDigitByte (digits : ds.all Char.isDigit) : (utf8 ds).all isDigitByte := by
  induction ds with
  | nil => rfl
  | cons c ds ih =>
    rw [List.all_cons, Bool.and_eq_true] at digits
    have range := toNat_of_isDigit digits.1
    have ascii : c.toNat < 128 := by omega
    rw [utf8_cons ascii, List.all_cons, Bool.and_eq_true]
    refine ⟨decide_eq_true ?_, ih digits.2⟩
    rwa [toNat_first ascii]

/-- Digits and white space are the rest of a number. -/
theorem numberTail_append {digits blank : Bytes} (all : digits.all isDigitByte)
    (blanks : blank.all isBlank) : numberTail (digits ++ blank) := by
  have solid : blank.dropWhile isDigitByte = blank := by
    cases blank with
    | nil => rfl
    | cons b blank =>
      rw [List.all_cons, Bool.and_eq_true] at blanks
      apply List.dropWhile_cons_of_neg
      have white := blanks.1
      simp only [isBlank, decide_eq_true_eq] at white
      rcases white with rfl | rfl | rfl | rfl <;> decide
  rw [numberTail, List.dropWhile_append_of_pos (List.all_eq_true.mp all), solid]
  cases blank with
  | nil => rfl
  | cons b blank =>
    have white := blanks
    rw [List.all_cons, Bool.and_eq_true] at white
    have white := white.1
    simp only [isBlank, decide_eq_true_eq] at white
    have other : b ≠ 0x2E ∧ ¬ (b = 0x65 ∨ b = 0x45) := by
      rcases white with rfl | rfl | rfl | rfl <;> decide
    simp only [if_neg other.1, exponentOrBlank, if_neg other.2]
    exact blanks

theorem readLiteral_eq_some {word : List Char} {v w : Value}
    (read : readLiteral word v cs = some (w, rest)) : w = v ∧ cs = word ++ rest := by
  unfold readLiteral at read
  split at read
  · rename_i begins
    cases read
    exact ⟨rfl, (List.prefix_iff_eq_append.mp begins).symm⟩
  · cases read

/-- The digits that are read, and what follows them. -/
theorem readDigits_eq_some {wrap : Nat → Number} {v : Value}
    (read : readDigits wrap cs = some (v, rest)) :
    ∃ ds n, cs = ds ++ rest ∧ ds ≠ [] ∧ ds.all Char.isDigit ∧ v = .number (wrap n) := by
  have split := (List.takeWhile_append_dropWhile (p := Char.isDigit) (l := cs)).symm
  have digits := List.all_takeWhile (p := Char.isDigit) (l := cs)
  unfold readDigits at read
  cases taken : cs.takeWhile Char.isDigit with
  | nil =>
    rw [taken] at read
    cases read
  | cons d ds =>
    rw [taken] at read split digits
    cases read
    exact ⟨d :: ds, _, split, List.cons_ne_nil _ _, digits, rfl⟩

theorem utf8_ne_nil_of_read {α : Type} {read : List Char → Option α} {out : α} (empty : read [] = none)
    (some : read cs = some out) : utf8 cs ≠ [] := by
  intro none
  rw [utf8_eq_nil.mp none, empty] at some
  cases some

/-- A value that is read, with white space behind it, begins as it should. -/
theorem begins_of_readValue {fuel : Nat} {v : Value} (read : readValue fuel (c :: cs) = some (v, rest))
    (blank : rest.all isSpace) : c.toNat < 128 ∧ Begins (utf8 cs) c.toNat v := by
  cases fuel with
  | zero => cases read
  | succ fuel =>
    rw [readValue] at read
    have blanks := all_isBlank blank
    split at read
    · rename_i digit
      have range := toNat_of_isDigit digit
      obtain ⟨ds, n, split, some_digit, digits, rfl⟩ := readDigits_eq_some read
      refine ⟨by omega, .number range ?_ (by rintro _ ⟨⟩)⟩
      cases ds with
      | nil => exact absurd rfl some_digit
      | cons d ds =>
        have behind : cs = ds ++ rest := (List.cons.inj split).2
        rw [List.all_cons, Bool.and_eq_true] at digits
        rw [behind, utf8_append]
        exact numberTail_append (all_isDigitByte digits.2) blanks
    split at read
    · rename_i minus
      obtain ⟨ds, n, rfl, some_digit, digits, rfl⟩ := readDigits_eq_some read
      subst minus
      refine ⟨by decide, .minus _ fun none => ?_⟩
      rw [utf8_eq_nil] at none
      exact some_digit (List.append_eq_nil_iff.mp none).1
    split at read
    · obtain ⟨rfl, rfl⟩ := readLiteral_eq_some read
      rename_i n
      subst n
      exact ⟨by decide, .null (utf8_append _ _) blanks⟩
    split at read
    · obtain ⟨rfl, rfl⟩ := readLiteral_eq_some read
      rename_i t
      subst t
      exact ⟨by decide, .true (utf8_append _ _) blanks⟩
    split at read
    · obtain ⟨rfl, rfl⟩ := readLiteral_eq_some read
      rename_i f
      subst f
      exact ⟨by decide, .false (utf8_append _ _) blanks⟩
    -- A quotation mark or bracket has to be closed.
    split at read
    · rename_i quote
      subst quote
      obtain ⟨out, inner, same⟩ := Option.map_eq_some_iff.mp read
      cases same
      have unclosed : readChars cs.length [] = none := by cases cs <;> rfl
      exact ⟨by decide, .string _ (utf8_ne_nil_of_read unclosed inner)⟩
    split at read
    · rename_i bracket
      subst bracket
      obtain ⟨out, inner, same⟩ := Option.map_eq_some_iff.mp read
      cases same
      exact ⟨by decide, .array _ (utf8_ne_nil_of_read rfl inner)⟩
    split at read
    · rename_i brace
      subst brace
      obtain ⟨out, inner, same⟩ := Option.map_eq_some_iff.mp read
      cases same
      exact ⟨by decide, .object _ (utf8_ne_nil_of_read rfl inner)⟩
    cases read

/-- A text that is read begins as it should, behind white space. -/
theorem begins_of_readText {v : Value} (read : readText cs = some v) :
    ∃ blank b rest, utf8 cs = blank ++ b :: rest ∧ blank.all isBlank ∧ Begins rest b.toNat v := by
  unfold readText readItem at read
  have split : cs = cs.takeWhile isSpace ++ skipSpace cs := (List.takeWhile_append_dropWhile).symm
  have blank := List.all_takeWhile (p := isSpace) (l := cs)
  cases skipped : skipSpace cs with
  | nil =>
    rw [skipped] at read
    cases fuel : cs.length with
    | zero =>
      rw [fuel] at read
      cases read
    | succ fuel' =>
      rw [fuel] at read
      cases read
  | cons c inner =>
    rw [skipped] at read split
    cases value : readValue cs.length (c :: inner) with
    | none =>
      rw [value] at read
      cases read
    | some out =>
      obtain ⟨w, rest⟩ := out
      rw [value] at read
      cases behind : skipSpace rest with
      | nil =>
        simp only [Option.bind_eq_bind, Option.bind_some, behind, Option.some.injEq] at read
        subst read
        have blankRest : rest.all isSpace := by
          rw [List.all_eq_true]
          exact List.dropWhile_eq_nil_iff.mp behind
        obtain ⟨ascii, begins⟩ := begins_of_readValue value blankRest
        refine ⟨utf8 (cs.takeWhile isSpace), .ofNat c.toNat, utf8 inner, ?_, all_isBlank blank, ?_⟩
        · rw [← utf8_cons ascii, ← utf8_append, ← split]
        · rwa [toNat_first ascii]
      | cons d others =>
        simp only [Option.bind_eq_bind, Option.bind_some, behind] at read
        cases read

end Texts

/-- Reads a text of UTF-8. -/
def readUtf8 (bs : Bytes) : Option Value :=
  if utf8 (fromUtf8Lossy bs).toList = bs then readText (fromUtf8Lossy bs).toList else none

/-- Takes every number for zero. -/
def readFraction : Bytes → Except String Value
  | [] => .error "EOF while parsing a value"
  | b :: rest =>
    if isDigitByte b ∧ numberTail rest then .ok (.number (.float 0)) else .error "expected value"

/-- Reads a text of a value that is nested no deeper than 127 levels, or a fraction. -/
def readSlice (bs : Bytes) : Except String Value :=
  match readUtf8 bs with
  | some v => if depth v ≤ 127 then .ok v else .error "recursion limit exceeded"
  | none => readFraction bs

theorem readSlice_of_renders {v : Value} {cs : List Char} (renders : Renders (.item v) cs) :
    readSlice (utf8 cs) = if depth v ≤ 127 then .ok v else .error "recursion limit exceeded" := by
  have chars : (fromUtf8Lossy (utf8 cs)).toList = cs := by
    rw [utf8, fromUtf8Lossy_asBytes, String.toList_ofList]
  have read : readUtf8 (utf8 cs) = some v := by
    rw [readUtf8, chars, if_pos rfl, readText_of_renders renders]
  rw [readSlice, read]

theorem begins_of_readUtf8 {bs : Bytes} {v : Value} (read : readUtf8 bs = some v) :
    ∃ blank b rest, bs = blank ++ b :: rest ∧ blank.all isBlank ∧ Begins rest b.toNat v := by
  unfold readUtf8 at read
  split at read
  · rename_i same
    rw [← same]
    exact begins_of_readText read
  · cases read

theorem exists_readSlice_of_number {b : UInt8} {rest : Bytes} (digit : isDigitByte b)
    (tail : numberTail rest) : ∃ v, readSlice (b :: rest) = .ok v := by
  unfold readSlice
  cases read : readUtf8 (b :: rest) with
  | none => exact ⟨_, if_pos ⟨digit, tail⟩⟩
  | some v =>
    obtain ⟨blank, c, others, split, blanks, begins⟩ := begins_of_readUtf8 read
    have first := begins.of_solid split blanks (isBlank_of_isDigitByte digit)
    obtain ⟨-, n, rfl, -⟩ := first.number_of_digit (of_decide_eq_true digit)
    exact ⟨_, if_pos (Nat.zero_le _)⟩

theorem begins_of_readSlice {bs : Bytes} {v : Value} (read : readSlice bs = .ok v) :
    ∃ blank b rest, bs = blank ++ b :: rest ∧ blank.all isBlank ∧ Begins rest b.toNat v := by
  unfold readSlice at read
  cases found : readUtf8 bs with
  | some w =>
    simp only [found] at read
    split at read
    · cases read
      exact begins_of_readUtf8 found
    · cases read
  | none =>
    simp only [found] at read
    cases bs with
    | nil => cases read
    | cons b rest =>
      by_cases number : isDigitByte b ∧ numberTail rest
      · rw [readFraction, if_pos number] at read
        cases read
        exact ⟨[], b, rest, rfl, rfl, .number (of_decide_eq_true number.1) number.2 (by rintro _ ⟨⟩)⟩
      · rw [readFraction, if_neg number] at read
        cases read

def textReader : SliceReader where
  fromSlice := readSlice
  fromSlice_of_renders renders shallow := by
    rw [readSlice_of_renders renders, if_pos shallow]
  fromSlice_of_deep renders deep := by
    rw [readSlice_of_renders renders, if_neg (Nat.not_le_of_lt deep)]
    exact ⟨_, rfl⟩
  fromSlice_of_number digit tail _ _ := exists_readSlice_of_number digit tail
  begins := begins_of_readSlice

end SerdeJson
