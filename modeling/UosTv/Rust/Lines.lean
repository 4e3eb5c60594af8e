import UosTv.Rust.Text

/-!
Lines and words of the Rust standard library: `ends_with`, `contains`, `trim_start_matches`,
`split_whitespace` and `lines`, of texts that are read lossily.
-/

namespace Rust

/-- `str::ends_with`. -/
def endsWith (s suf : String) : Bool := decide (suf.toList <:+ s.toList)

/-- `str::contains`. -/
def contains (s sub : String) : Bool := decide (sub.toList <:+: s.toList)

/-- `str::trim_start_matches` of a character. -/
def trimStartMatches (s : String) (c : Char) : String := String.ofList (s.toList.dropWhile (· = c))

/-- `str::split_whitespace`. -/
def splitWhitespace (s : String) : List String :=
  ((s.toList.splitOnP isWhitespace).filter (· ≠ [])).map String.ofList

/-- `str::lines`, its first one. A carriage return belongs to the end of the line. -/
def firstLine (s : String) : Option String :=
  if s = "" then none
  else match splitOnce s '\n' with
    | none => some s
    | some (line, _) => some ((stripSuffix line "\r").getD line)

/-- `str::lines`. -/
def lines (s : String) : List String :=
  let parts := split s '\n'
  parts.dropLast.map (fun line => (stripSuffix line "\r").getD line) ++
    parts.getLast?.toList.filter (· ≠ "")

/-! ### What comes first in a text -/

section Read

variable {s word rest : String} {bytes : List UInt8} {fuel fuel' : Nat} {cs : List Char}

theorem lossyHead_pos (bytes : List UInt8) : 0 < (lossyHead bytes).2 := by
  unfold lossyHead
  split
  · exact Char.utf8Size_pos _
  · unfold invalidLen
    split
    · split_ifs <;> decide
    · exact Nat.zero_lt_one

/-- More fuel than bytes changes nothing. -/
theorem lossyChars_fuel (enough : bytes.length ≤ fuel) (enough' : bytes.length ≤ fuel') :
    lossyChars fuel bytes = lossyChars fuel' bytes := by
  induction fuel generalizing bytes fuel' with
  | zero =>
    rw [List.length_eq_zero_iff.mp (Nat.le_zero.mp enough)]
    cases fuel' <;> rfl
  | succ fuel ih =>
    cases bytes with
    | nil => cases fuel' <;> rfl
    | cons b bs =>
      cases fuel' with
      | zero => exact absurd enough' (Nat.not_succ_le_zero _)
      | succ fuel' =>
        have pos := lossyHead_pos (b :: bs)
        have shorter : ((b :: bs).drop (lossyHead (b :: bs)).2).length ≤ bs.length := by
          rw [List.length_drop, List.length_cons]
          omega
        have same := ih (shorter.trans (Nat.le_of_succ_le_succ enough))
          (shorter.trans (Nat.le_of_succ_le_succ enough'))
        rw [lossyChars, lossyChars, same]

theorem lossyChars_append (enough : (cs.flatMap String.utf8EncodeChar ++ bytes).length ≤ fuel) :
    lossyChars fuel (cs.flatMap String.utf8EncodeChar ++ bytes) =
      cs ++ lossyChars bytes.length bytes := by
  induction cs generalizing fuel with
  | nil => exact lossyChars_fuel enough (Nat.le_refl _)
  | cons c cs ih =>
    have size := String.length_utf8EncodeChar c
    have pos := c.utf8Size_pos
    rw [List.flatMap_cons, List.append_assoc] at enough ⊢
    have head := lossyHead_encode c (cs.flatMap String.utf8EncodeChar ++ bytes)
    rw [List.length_append, size] at enough
    cases fuel with
    | zero => omega
    | succ fuel =>
      cases all : String.utf8EncodeChar c ++ (cs.flatMap String.utf8EncodeChar ++ bytes) with
      | nil =>
        have none := congrArg List.length all
        rw [List.length_append, size, List.length_nil] at none
        omega
      | cons b bs =>
        rw [all] at head
        rw [lossyChars, head, ← all, ← size, List.drop_left, ih (by omega)]
        rfl

/-- A text in front of bytes is read as it is. -/
theorem fromUtf8Lossy_append : fromUtf8Lossy (asBytes s ++ bytes) = s ++ fromUtf8Lossy bytes := by
  refine String.toList_inj.mp ?_
  rw [fromUtf8Lossy, String.toList_append, fromUtf8Lossy, String.toList_ofList, String.toList_ofList]
  exact lossyChars_append (Nat.le_refl _)

/-- A word of a text, behind which there is a space. -/
theorem splitWhitespace_append (nonempty : word ≠ "")
    (plain : ∀ c ∈ word.toList, isWhitespace c = false) :
    splitWhitespace (word ++ " " ++ rest) = word :: splitWhitespace rest := by
  have chars : word.toList ≠ [] := fun empty => nonempty (String.toList_inj.mp empty)
  have parts : (word ++ " " ++ rest).toList = word.toList ++ ' ' :: rest.toList := by
    rw [String.toList_append, String.toList_append, List.append_assoc]
    rfl
  rw [splitWhitespace, parts, List.splitOnP_append_cons_of_forall_mem plain _ (by decide),
    List.filter_cons, if_pos (decide_eq_true chars), List.map_cons, String.ofList_toList]
  rfl

theorem splitOnce_prefix {sep : Char} (apart : sep ∉ s.toList) :
    splitOnce (s ++ rest) sep = (splitOnce rest sep).map fun parts => (s ++ parts.1, parts.2) := by
  have all : ∀ c ∈ s.toList, decide (c ≠ sep) = true := fun c mem =>
    decide_eq_true fun same => apart (same ▸ mem)
  rw [splitOnce, splitOnce, List.span_eq_takeWhile_dropWhile, List.span_eq_takeWhile_dropWhile,
    String.toList_append, List.takeWhile_append_of_pos all, List.dropWhile_append_of_pos all]
  cases rest.toList.dropWhile fun c => decide (c ≠ sep) with
  | nil => rfl
  | cons c after =>
    simp only [Option.map_some, String.ofList_append, String.ofList_toList]

/-- What is stripped from a text is not what comes first in it. -/
theorem exists_stripSuffix_append {c : Char} (rest : String) (other : ¬ [c] <:+ s.toList) :
    ∃ more, (stripSuffix (s ++ rest) (String.singleton c)).getD (s ++ rest) = s ++ more := by
  by_cases ends : [c] <:+ rest.toList
  · rw [← String.toList_singleton] at ends
    obtain ⟨pre, rfl⟩ := eq_append_of_suffix ends
    rw [← String.append_assoc, stripSuffix_append]
    exact ⟨pre, rfl⟩
  · refine ⟨rest, ?_⟩
    rw [stripSuffix_eq_none, Option.getD_none]
    rw [String.toList_append, String.toList_singleton]
    intro suffix
    cases last : rest.toList using List.reverseRecOn with
    | nil =>
      rw [last, List.append_nil] at suffix
      exact other suffix
    | append_singleton init d =>
      rw [last, ← List.append_assoc] at suffix
      rw [last] at ends
      obtain ⟨pre, parts⟩ := suffix
      have same := List.append_inj_right' parts rfl
      exact ends ⟨init, by rw [same]⟩

/-- The beginning of a line is the beginning of the first line. -/
theorem firstLine_append (rest : String) (single : '\n' ∉ s.toList) :
    ∃ more, firstLine (s ++ " " ++ rest) = some (s ++ " " ++ more) := by
  have apart : '\n' ∉ (s ++ " ").toList := by
    rw [String.toList_append]
    exact List.not_mem_append single (by decide)
  have someText : s ++ " " ++ rest ≠ "" := by
    rw [String.append_assoc]
    simp
  rw [firstLine, if_neg someText, splitOnce_prefix apart]
  cases splitOnce rest '\n' with
  | none => exact ⟨rest, rfl⟩
  | some parts =>
    have other : ¬ ['\r'] <:+ (s ++ " ").toList := by
      rintro ⟨pre, split⟩
      rw [String.toList_append] at split
      exact absurd (List.append_inj_right' split rfl) (by decide)
    obtain ⟨more, stripped⟩ := exists_stripSuffix_append parts.1 other
    exact ⟨more, congrArg some stripped⟩

end Read

/-! ### Tables -/

section Tables

variable {rows parts : List String}

/-- Rows that each end with a newline. -/
def table (rows : List String) : String := String.intercalate (String.singleton '\n') (rows ++ [""])

theorem lines_table (single : ∀ row ∈ rows, '\n' ∉ row.toList)
    (bare : ∀ row ∈ rows, ¬ ['\r'] <:+ row.toList) : lines (table rows) = rows := by
  have whole : split (table rows) '\n' = rows ++ [""] := by
    refine split_intercalate (by simp) (List.forall_mem_append.mpr ⟨single, ?_⟩)
    exact List.forall_mem_singleton.mpr List.not_mem_nil
  have same : rows.map (fun line => (stripSuffix line "\r").getD line) = rows := by
    refine (List.map_congr_left fun row mem => ?_).trans (List.map_id rows)
    have kept : stripSuffix row "\r" = none := stripSuffix_eq_none (bare row mem)
    rw [kept, Option.getD_none, id]
  rw [lines, whole, List.dropLast_concat, List.getLast?_concat, same]
  simp

/-- A property of the separator and of the characters of all parts. -/
theorem forall_mem_intercalate {P : Char → Prop} {sep : Char} (separator : P sep)
    (chars : ∀ part ∈ parts, ∀ c ∈ part.toList, P c) :
    ∀ c ∈ (String.intercalate (String.singleton sep) parts).toList, P c := by
  induction parts with
  | nil => exact List.forall_mem_nil _
  | cons part parts ih =>
    obtain ⟨first, chars⟩ := List.forall_mem_cons.mp chars
    cases parts with
    | nil =>
      rw [String.intercalate_singleton]
      exact first
    | cons next parts =>
      rw [String.intercalate_cons_cons, String.toList_append, String.toList_append,
        String.toList_singleton]
      refine List.forall_mem_append.mpr ⟨List.forall_mem_append.mpr ⟨first, ?_⟩, ih chars⟩
      exact List.forall_mem_singleton.mpr separator

end Tables

end Rust
