import UosTv.UpdateVerify.Order

/-!
Versions made of decimal numerals.

Where every part of a version is a numeral, nothing of it is skipped, and `is_downgrade` is the
lexicographic order of the numbers with zeros at the end (`isDowngrade_padded`). A pre-release
suffix hides the patch number, and its own numbers take that place (`isDowngrade_core_iff`).
-/

namespace UpdateVerify

open Rust

/-- A decimal numeral below `2 ^ 32`. -/
structure Numeral where
  text : String
  nonempty : text.toList ≠ []
  digits : text.toList.all Char.isDigit = true
  small : decimal text.toList < 2 ^ 32

namespace Numeral

def value (n : Numeral) : Nat := decimal n.text.toList

theorem parseU32_text (n : Numeral) : parseU32 n.text = some n.value := by
  have parsed : parseDigits (2 ^ 32) n.text.toList = some n.value :=
    if_pos ⟨n.nonempty, n.digits, n.small⟩
  unfold parseU32
  split
  · rename_i cs plus
    have digits := n.digits
    rw [plus] at digits
    simp at digits
  · exact parsed

theorem not_mem_text {c : Char} (n : Numeral) (other : c.isDigit = false) : c ∉ n.text.toList := by
  intro mem
  have digit := List.all_eq_true.mp n.digits c mem
  rw [other] at digit
  cases digit

end Numeral

/-- The parts of a version, with dots in between. -/
def dotted (parts : List String) : String := String.intercalate (String.singleton '.') parts

theorem parse_dotted {parts : List String} (nonempty : parts ≠ [])
    (dotless : ∀ part ∈ parts, '.' ∉ part.toList) :
    parse (dotted parts) = parts.filterMap parseU32 := by
  rw [parse, dotted, split_intercalate nonempty dotless]

/-! ### The order of numbers with zeros at the end -/

section Older

variable {newer current : List Nat}

/-- The first number in which the two differ, with zeros at the end, is smaller in the newer. -/
def Older (newer current : List Nat) : Prop := toLex (component newer) < toLex (component current)

theorem component_append_zeros (numbers : List Nat) (count i : Nat) :
    component (numbers ++ List.replicate count 0) i = component numbers i := by
  unfold component
  rw [List.getElem?_append]
  split
  · rfl
  · rename_i past
    rw [List.getElem?_eq_none (Nat.le_of_not_lt past), List.getElem?_replicate]
    split <;> rfl

theorem component_rightpad (numbers : List Nat) (length : Nat) :
    component (numbers.rightpad length 0) = component numbers :=
  funext fun i => component_append_zeros numbers _ i

theorem component_of_lt {numbers : List Nat} {i : Nat} (within : i < numbers.length) :
    component numbers i = numbers[i] := by
  rw [component, List.getElem?_eq_getElem within, Option.getD_some]

/-- Among lists of one length it is the order of lists. -/
theorem older_iff_lt (length : newer.length = current.length) :
    Older newer current ↔ newer < current := by
  rw [List.lt_iff_exists]
  constructor
  · rintro ⟨i, before, less⟩
    have within : i < current.length := by
      by_contra past
      change component newer i < component current i at less
      rw [component_of_length_le (not_lt.mp past)] at less
      exact absurd less (Nat.not_lt_zero _)
    refine .inr ⟨i, by omega, within, fun j below => ?_, ?_⟩
    · have same : component newer j = component current j := before j below
      rwa [component_of_lt (by omega), component_of_lt (by omega)] at same
    · change component newer i < component current i at less
      rwa [component_of_lt (by omega), component_of_lt within] at less
  · rintro (⟨-, shorter⟩ | ⟨i, within, within', before, less⟩)
    · omega
    · refine ⟨i, fun j below => ?_, ?_⟩
      · change component newer j = component current j
        rw [component_of_lt (by omega), component_of_lt (by omega), before j below]
      · change component newer i < component current i
        rwa [component_of_lt within, component_of_lt within']

theorem older_cons_iff {a b : Nat} : Older (a :: newer) (b :: current) ↔
    a < b ∨ a = b ∧ Older newer current := by
  constructor
  · rintro ⟨i, before, less⟩
    cases i with
    | zero => exact .inl less
    | succ i =>
      refine .inr ⟨before 0 (Nat.succ_pos i), i, fun j below => ?_, less⟩
      exact before (j + 1) (Nat.succ_lt_succ below)
  · rintro (less | ⟨rfl, i, before, less⟩)
    · exact ⟨0, fun j below => absurd below (Nat.not_lt_zero j), less⟩
    · refine ⟨i + 1, fun j below => ?_, less⟩
      cases j with
      | zero => rfl
      | succ j => exact before j (Nat.lt_of_succ_lt_succ below)

end Older

/-! ### Versions of numerals -/

/-- A version all of whose parts are numerals. -/
structure NumericVersion where
  parts : List Numeral
  nonempty : parts ≠ []

namespace NumericVersion

def text (v : NumericVersion) : String := dotted (v.parts.map Numeral.text)

def numbers (v : NumericVersion) : List Nat := v.parts.map Numeral.value

variable (a b c : NumericVersion)

theorem parse_text : parse a.text = a.numbers := by
  have dotless : ∀ part ∈ a.parts.map Numeral.text, '.' ∉ part.toList := by
    rw [List.forall_mem_map]
    exact fun n _ => n.not_mem_text (by decide)
  rw [text, parse_dotted (by simpa using a.nonempty) dotless, List.filterMap_map, numbers,
    ← List.filterMap_eq_map]
  exact congrArg (a.parts.filterMap ·) (funext Numeral.parseU32_text)

theorem numbered : ¬ Unnumbered a.text := by
  rw [Unnumbered, parse_text, numbers, List.map_eq_nil_iff]
  exact a.nonempty

theorem isDowngrade_iff : isDowngrade a.text b.text = true ↔ Older b.numbers a.numbers := by
  rw [UpdateVerify.isDowngrade_iff, and_iff_right a.numbered, and_iff_right b.numbered, release,
    release, parse_text, parse_text, Older]

theorem not_isDowngrade_iff : isDowngrade a.text b.text = false ↔
    toLex (component a.numbers) ≤ toLex (component b.numbers) := by
  rw [← Bool.not_eq_true, isDowngrade_iff]
  exact not_lt

/-- The length at which both are compared. -/
def length : Nat := max a.parts.length b.parts.length

/-- The numbers of both agree, with zeros after the shorter, iff some zeros make them the same. -/
theorem same_iff : component a.numbers = component b.numbers ↔
    ∃ k l, a.numbers ++ List.replicate k 0 = b.numbers ++ List.replicate l 0 := by
  constructor
  · intro same
    refine ⟨b.numbers.length - a.numbers.length, a.numbers.length - b.numbers.length, ?_⟩
    apply List.ext_getElem?
    intro i
    by_cases within : i < max a.numbers.length b.numbers.length
    · have same := congrFun same i
      have left : i < (a.numbers ++ List.replicate (b.numbers.length - a.numbers.length) 0).length := by
        simp
        omega
      have right : i < (b.numbers ++ List.replicate (a.numbers.length - b.numbers.length) 0).length := by
        simp
        omega
      rw [← component_append_zeros a.numbers, ← component_append_zeros b.numbers,
        component_of_lt left, component_of_lt right] at same
      rw [List.getElem?_eq_getElem left, List.getElem?_eq_getElem right, same]
    · rw [List.getElem?_eq_none (by simp; omega), List.getElem?_eq_none (by simp; omega)]
  · rintro ⟨k, l, same⟩
    funext i
    rw [← component_append_zeros a.numbers k, same, component_append_zeros]

end NumericVersion

/-- On versions of numerals `is_downgrade` is the lexicographic order of their numbers, with zeros
up to the longer length. It is a strict order, and its negation is a total preorder in which
versions are equivalent iff they differ in zeros at the end only. -/
theorem isDowngrade_padded (a b c : NumericVersion) :
    (isDowngrade a.text b.text = true ↔
      b.numbers.rightpad (a.length b) 0 < a.numbers.rightpad (a.length b) 0) ∧
    isDowngrade a.text a.text = false ∧
    (isDowngrade a.text b.text = true → isDowngrade b.text a.text = false) ∧
    (isDowngrade a.text b.text = true → isDowngrade b.text c.text = true →
      isDowngrade a.text c.text = true) ∧
    (isDowngrade a.text b.text = false → isDowngrade b.text c.text = false →
      isDowngrade a.text c.text = false) ∧
    (isDowngrade a.text b.text = false ∨ isDowngrade b.text a.text = false) ∧
    (isDowngrade a.text b.text = false ∧ isDowngrade b.text a.text = false ↔
      ∃ k l, a.numbers ++ List.replicate k 0 = b.numbers ++ List.replicate l 0) := by
  simp only [NumericVersion.isDowngrade_iff, NumericVersion.not_isDowngrade_iff]
  refine ⟨?_, le_refl _, le_of_lt, fun first second => second.trans first, le_trans, le_total _ _, ?_⟩
  · rw [← older_iff_lt, Older, Older, component_rightpad, component_rightpad]
    simp only [List.rightpad, List.length_append, List.length_replicate, NumericVersion.length,
      NumericVersion.numbers, List.length_map]
    omega
  · rw [← NumericVersion.same_iff, ← le_antisymm_iff]
    exact toLex_inj

/-! ### Pre-releases -/

/-- A version `X.Y.Z`, or `X.Y.Z-P` with the identifiers of `P`. -/
structure SemVer where
  major : Numeral
  minor : Numeral
  patch : Numeral
  pre : List String := []
  dotless : ∀ p ∈ pre, '.' ∉ p.toList

namespace SemVer

def text (v : SemVer) : String :=
  match v.pre with
  | [] => dotted [v.major.text, v.minor.text, v.patch.text]
  | first :: rest => dotted (v.major.text :: v.minor.text :: (v.patch.text ++ "-" ++ first) :: rest)

/-- The release that the version is of, or leads to. -/
def core (v : SemVer) : List Nat := [v.major.value, v.minor.value, v.patch.value]

/-- The numbers that are read after the minor one. -/
def tail (v : SemVer) : List Nat :=
  match v.pre with
  | [] => [v.patch.value]
  | _ :: rest => rest.filterMap parseU32

variable (v cur new : SemVer)

/-- A patch number with a suffix is no number. -/
theorem parseU32_suffixed (n : Numeral) (suffix : String) :
    parseU32 (n.text ++ "-" ++ suffix) = none := by
  have chars : (n.text ++ "-" ++ suffix).toList = n.text.toList ++ '-' :: suffix.toList := by
    simp [String.toList_append]
  have notDigits : ¬ (n.text.toList ++ '-' :: suffix.toList).all Char.isDigit = true := by
    simp
  unfold parseU32
  rw [chars]
  split
  · rename_i cs plus
    have digits := n.digits
    cases first : n.text.toList with
    | nil => exact absurd first n.nonempty
    | cons c cs' =>
      rw [first] at plus digits
      obtain ⟨rfl, -⟩ := List.cons.inj plus
      simp at digits
  · exact if_neg fun parsed => notDigits parsed.2.1

theorem parse_text : parse v.text = v.major.value :: v.minor.value :: v.tail := by
  have numeral : ∀ n : Numeral, '.' ∉ n.text.toList := fun n => n.not_mem_text (by decide)
  have dotless := v.dotless
  unfold text tail
  cases pre : v.pre with
  | nil =>
    simp only
    rw [parse_dotted (List.cons_ne_nil _ _) (by simp [numeral])]
    simp [Numeral.parseU32_text]
  | cons first rest =>
    rw [pre, List.forall_mem_cons] at dotless
    obtain ⟨here, later⟩ := dotless
    simp only
    rw [parse_dotted (List.cons_ne_nil _ _)]
    · simp [Numeral.parseU32_text, parseU32_suffixed]
    · simp only [List.forall_mem_cons]
      refine ⟨numeral _, numeral _, ?_, later⟩
      simp [String.toList_append, numeral, here]

theorem isDowngrade_iff : isDowngrade cur.text new.text = true ↔
    new.major.value < cur.major.value ∨ new.major.value = cur.major.value ∧
      (new.minor.value < cur.minor.value ∨ new.minor.value = cur.minor.value ∧
        Older new.tail cur.tail) := by
  rw [UpdateVerify.isDowngrade_iff, Unnumbered, Unnumbered, release, release, parse_text, parse_text,
    and_iff_right (List.cons_ne_nil _ _), and_iff_right (List.cons_ne_nil _ _), ← older_cons_iff,
    ← older_cons_iff]
  rfl

theorem core_lt_iff : new.core < cur.core ↔
    new.major.value < cur.major.value ∨ new.major.value = cur.major.value ∧
      (new.minor.value < cur.minor.value ∨ new.minor.value = cur.minor.value ∧
        new.patch.value < cur.patch.value) := by
  simp [core, List.cons_lt_cons_iff]

end SemVer

/-- Among versions with or without a pre-release `is_downgrade` follows the order of the releases
iff, where only the patch numbers differ, the numbers that are read in their place differ in the
same way: those among the identifiers of a pre-release after its first. -/
theorem isDowngrade_core_iff (cur new : SemVer) :
    ((new.core < cur.core → isDowngrade cur.text new.text = true) ∧
        (cur.core < new.core → isDowngrade cur.text new.text = false)) ↔
      (new.major.value = cur.major.value → new.minor.value = cur.minor.value →
        (new.patch.value < cur.patch.value → Older new.tail cur.tail) ∧
          (cur.patch.value < new.patch.value → ¬ Older new.tail cur.tail)) := by
  rw [← Bool.not_eq_true, SemVer.isDowngrade_iff, SemVer.core_lt_iff, SemVer.core_lt_iff]
  by_cases major : new.major.value = cur.major.value
  · by_cases minor : new.minor.value = cur.minor.value
    · simp [major, minor]
    · simp only [major, minor, true_and, false_and, or_false, lt_irrefl, false_or, forall_const,
        IsEmpty.forall_iff, iff_true, Ne.symm minor]
      omega
  · simp only [major, false_and, or_false, IsEmpty.forall_iff, iff_true, Ne.symm major]
    omega

def sampleNumeral (text : String) (nonempty : text.toList ≠ [])
    (digits : text.toList.all Char.isDigit = true) (small : decimal text.toList < 2 ^ 32) : Numeral :=
  ⟨text, nonempty, digits, small⟩

def sampleRelease (patch : Numeral) (pre : List String) (dotless : ∀ p ∈ pre, '.' ∉ p.toList) :
    SemVer where
  major := sampleNumeral "1" (by decide) (by decide) (by decide)
  minor := sampleNumeral "2" (by decide) (by decide) (by decide)
  patch := patch
  pre := pre
  dotless := dotless

def patch₂ : Numeral := sampleNumeral "2" (by decide) (by decide) (by decide)

def patch₃ : Numeral := sampleNumeral "3" (by decide) (by decide) (by decide)

def patch₅ : Numeral := sampleNumeral "5" (by decide) (by decide) (by decide)

/-- After a pre-release of 1.2.3 an older release is no downgrade, and a newer one is. -/
theorem pre_release_hides_patch :
    ((sampleRelease patch₃ ["rc1"] (by decide)).text = "1.2.3-rc1" ∧
      (sampleRelease patch₂ [] (by decide)).text = "1.2.2" ∧
      (sampleRelease patch₂ [] (by decide)).core < (sampleRelease patch₃ ["rc1"] (by decide)).core ∧
      isDowngrade "1.2.3-rc1" "1.2.2" = false) ∧
    ((sampleRelease patch₃ ["rc", "9"] (by decide)).text = "1.2.3-rc.9" ∧
      (sampleRelease patch₅ [] (by decide)).text = "1.2.5" ∧
      (sampleRelease patch₃ ["rc", "9"] (by decide)).core <
        (sampleRelease patch₅ [] (by decide)).core ∧
      isDowngrade "1.2.3-rc.9" "1.2.5" = true) := by
  decide

end UpdateVerify
