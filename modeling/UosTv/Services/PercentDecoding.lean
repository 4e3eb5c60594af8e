import UosTv.Services.Lunad

/-!
Which paths `lunad` decodes as the reference does.

Once the loop has swallowed bytes that the reference keeps, it catches up only by accident, and once
it has turned a byte into two it does not at all (`lags`, `ahead`). So the texts for which both agree
can be listed (`Agrees`, `percentDecode_iff`).
-/

namespace Lunad

open Rust

/-! ### A loop that has fallen behind -/

/-- The reference is behind by bytes one of which is ASCII: what is coded never is what is missing
and the rest of the reference. -/
def Lags (r : Bytes) : Prop :=
  ∀ missing : Bytes, (∃ b ∈ missing, b.toNat < 128) → coded r ≠ missing ++ reference r

/-- Of two texts that are the same, the first byte is that of what one begins with. -/
theorem exists_of_cons_eq {b : UInt8} {bs missing rest : Bytes} (same : b :: bs = missing ++ rest)
    (some : missing ≠ []) : ∃ missing', missing = b :: missing' ∧ bs = missing' ++ rest := by
  obtain ⟨empty, -⟩ | found := List.cons_eq_append_iff.mp same
  · exact absurd empty some
  · exact found

section Behind

variable {r missing : Bytes} (lags : ∀ r' : Bytes, r'.length ≤ r.length → Lags r')
include lags

/-- So it is if the reference has a `%` to read before. -/
theorem lags_percent (mem : 37 ∈ missing) : coded r ≠ missing ++ reference (37 :: r) := by
  intro same
  obtain ⟨hi, lo, v, rest, rfl, pair, read⟩ | kept := reference_percent r
  · obtain ⟨high, low, first, second, -⟩ := hexPair_eq_some pair
    rw [read, coded_digit first, coded_digit second] at same
    obtain ⟨missing₁, rfl, same₁⟩ := exists_of_cons_eq same (List.ne_nil_of_mem mem)
    have mem₁ := (List.mem_cons.mp mem).resolve_left (hexDigit_ascii first).2.1.symm
    obtain ⟨missing₂, rfl, same₂⟩ := exists_of_cons_eq same₁ (List.ne_nil_of_mem mem₁)
    have mem₂ := (List.mem_cons.mp mem₁).resolve_left (hexDigit_ascii second).2.1.symm
    rw [List.append_cons] at same₂
    refine lags rest (by simp only [List.length_cons]; omega) (missing₂ ++ [v]) ?_ same₂
    exact ⟨37, List.mem_append_left _ mem₂, by decide⟩
  · rw [kept, List.append_cons] at same
    exact lags r (Nat.le_refl _) _ ⟨37, List.mem_append_left _ mem, by decide⟩ same

/-- And if it has a `%` and another byte to read before. -/
theorem lags_percent_cons {b : UInt8} (mem : 37 ∈ missing) :
    coded r ≠ missing ++ reference (37 :: b :: r) := by
  intro same
  obtain ⟨hi, lo, v, rest, here, pair, read⟩ | kept := reference_percent (b :: r)
  · obtain ⟨high, low, -, second, -⟩ := hexPair_eq_some pair
    obtain ⟨rfl, rfl⟩ := List.cons.inj here
    rw [read, coded_digit second] at same
    obtain ⟨missing₁, rfl, same₁⟩ := exists_of_cons_eq same (List.ne_nil_of_mem mem)
    have mem₁ := (List.mem_cons.mp mem).resolve_left (hexDigit_ascii second).2.1.symm
    rw [List.append_cons] at same₁
    exact lags rest (Nat.le_succ _) _ ⟨37, List.mem_append_left _ mem₁, by decide⟩ same₁
  · rw [kept, List.append_cons] at same
    have mem' : 37 ∈ missing ++ [37] := List.mem_append_left _ mem
    by_cases percent : b = 37
    · subst percent
      exact lags_percent lags mem' same
    · rw [reference_cons percent, List.append_cons] at same
      exact lags r (Nat.le_refl _) _ ⟨37, List.mem_append_left _ mem', by decide⟩ same

end Behind

theorem plus_low {b : UInt8} (low : b.toNat < 128) : (plus b).toNat < 128 := by
  unfold plus
  split
  · decide
  · exact low

/-- Behind a pair that is no escape the reference has both bytes to read, which the loop has
swallowed. -/
theorem lags_swallowed {hi lo : UInt8} {rest missing : Bytes}
    (lags : ∀ r' : Bytes, r'.length ≤ rest.length → Lags r') (mem : 37 ∈ missing) :
    coded rest ≠ missing ++ reference (hi :: lo :: rest) := by
  intro same
  by_cases percent : hi = 37
  · subst percent
    exact lags_percent_cons lags mem same
  · rw [reference_cons percent, List.append_cons] at same
    have mem' : 37 ∈ missing ++ [plus hi] := List.mem_append_left _ mem
    by_cases percent' : lo = 37
    · subst percent'
      exact lags_percent lags mem' same
    · rw [reference_cons percent', List.append_cons] at same
      exact lags rest (Nat.le_refl _) _ ⟨37, List.mem_append_left _ mem', by decide⟩ same

/-- The loop does not catch up. The proof is by the length of the text. -/
theorem lags (r : Bytes) : Lags r := by
  induction n : r.length using Nat.strong_induction_on generalizing r with
  | _ n ih =>
    subst n
    rintro missing ⟨b, mem, low⟩ same
    have some : missing ≠ [] := List.ne_nil_of_mem mem
    have shorter : ∀ rest : Bytes, rest.length < r.length → Lags rest := fun rest less =>
      ih _ less rest rfl
    cases view r with
    | nil => exact some (List.append_eq_nil_iff.mp same.symm).1
    | last =>
      have lengths := congrArg List.length same
      have pos := List.length_pos_iff.mpr some
      rw [coded_last, List.length_append] at lengths
      change 1 = missing.length + 1 at lengths
      omega
    | short =>
      rename_i b'
      have lengths := congrArg List.length same
      have pos := List.length_pos_iff.mpr some
      have read : reference [37, b'] = 37 :: reference [b'] := rfl
      rw [coded_short, read, List.length_append] at lengths
      change 1 = missing.length + ((reference [b']).length + 1) at lengths
      omega
    | swallowed unpaired =>
      rename_i hi lo rest
      rw [coded_swallowed unpaired, reference_swallowed unpaired] at same
      obtain ⟨missing₁, rfl, same₁⟩ := exists_of_cons_eq same some
      rw [List.append_cons] at same₁
      refine lags_swallowed (fun r' less => shorter r' ?_) (List.mem_append_right _ ?_) same₁
      · simp only [List.length_cons]
        omega
      · exact List.mem_singleton.mpr rfl
    | token token =>
      rename_i t rest v
      have less : rest.length < (t ++ rest).length := by
        rw [List.length_append]
        exact Nat.lt_add_of_pos_left token.length_pos
      rw [token.reference] at same
      by_cases ascii : v.toNat < 128
      · rw [coded_low token ascii] at same
        obtain ⟨missing₁, rfl, same₁⟩ := exists_of_cons_eq same some
        rw [List.append_cons] at same₁
        refine shorter rest less _ ⟨v, List.mem_append_right _ ?_, ascii⟩ same₁
        exact List.mem_singleton.mpr rfl
      · obtain ⟨first, second, two, high, high'⟩ := exists_latin (Nat.le_of_not_lt ascii)
        rw [coded_token token, two, List.cons_append, List.cons_append, List.nil_append] at same
        obtain ⟨missing₁, rfl, same₁⟩ := exists_of_cons_eq same some
        have mem₁ := (List.mem_cons.mp mem).resolve_left fun here =>
          Nat.not_lt.mpr high (here ▸ low)
        obtain ⟨missing₂, rfl, same₂⟩ := exists_of_cons_eq same₁ (List.ne_nil_of_mem mem₁)
        have mem₂ := (List.mem_cons.mp mem₁).resolve_left fun here =>
          Nat.not_lt.mpr high' (here ▸ low)
        rw [List.append_cons] at same₂
        exact shorter rest less _ ⟨b, List.mem_append_left _ mem₂, low⟩ same₂

/-! ### Bytes that are not ASCII -/

/-- What is coded begins with a byte that is not ASCII only if the text does, as a token. -/
theorem exists_token_of_high {r bs : Bytes} {b : UInt8} (same : coded r = b :: bs)
    (high : 128 ≤ b.toNat) : ∃ t v rest, r = t ++ rest ∧ Token t v ∧ 128 ≤ v.toNat := by
  cases view r with
  | nil => cases same
  | last =>
    rw [coded_last] at same
    cases same
    exact absurd high (by decide)
  | short =>
    rw [coded_short] at same
    cases same
    exact absurd high (by decide)
  | swallowed unpaired =>
    rw [coded_swallowed unpaired] at same
    cases same
    exact absurd (swallowed_low unpaired) (Nat.not_lt.mpr high)
  | token token =>
    rename_i t rest v
    refine ⟨t, v, rest, rfl, token, Nat.le_of_not_lt fun low => ?_⟩
    rw [coded_low token low] at same
    cases same
    exact absurd low (Nat.not_lt.mpr high)

/-- Bytes that are coded too much, and are not ASCII, are not made up for. -/
theorem ahead (r : Bytes) : ∀ extra : Bytes, extra ≠ [] → (∀ b ∈ extra, 128 ≤ b.toNat) →
    extra ++ coded r ≠ reference r := by
  induction n : r.length using Nat.strong_induction_on generalizing r with
  | _ n ih =>
    subst n
    intro extra some high same
    obtain ⟨b, extra, rfl⟩ := List.exists_cons_of_ne_nil some
    obtain ⟨first, later⟩ := List.forall_mem_cons.mp high
    rw [List.cons_append] at same
    have ascii : ∀ bs, reference r ≠ 37 :: bs := by
      intro bs read
      rw [read] at same
      cases same
      exact absurd first (by decide)
    cases view r with
    | nil => cases same
    | last => exact ascii [] rfl
    | short => exact ascii _ rfl
    | swallowed unpaired => exact ascii _ (reference_swallowed unpaired)
    | token token =>
      rename_i t rest v
      rw [token.reference] at same
      obtain ⟨rfl, same₁⟩ := List.cons.inj same
      obtain ⟨e, e', two, high₁, high₂⟩ := exists_latin first
      rw [coded_token token, two, ← List.append_assoc] at same₁
      refine ih rest.length ?_ rest rfl (extra ++ [e, e']) (by simp) ?_ same₁
      · rw [List.length_append]
        exact Nat.lt_add_of_pos_left token.length_pos
      · rw [List.forall_mem_append]
        exact ⟨later, by simp [high₁, high₂]⟩

/-- A token that is not ASCII sets the loop ahead. -/
theorem coded_ne_of_high {t rest : Bytes} {v : UInt8} (token : Token t v) (high : 128 ≤ v.toNat) :
    coded (t ++ rest) ≠ reference (t ++ rest) := by
  intro same
  obtain ⟨e, e', two, -, high'⟩ := exists_latin high
  rw [coded_token token, token.reference, two] at same
  refine ahead rest [e'] (List.cons_ne_nil _ _) ?_ (List.cons.inj same).2
  simpa using high'

/-- The reference is behind by one byte that is not ASCII. -/
theorem behind_one {r : Bytes} {v : UInt8} (high : 128 ≤ v.toNat)
    (same : coded r = v :: reference r) : v = 0xC2 ∧ ∃ t x rest, r = t ++ rest ∧ Token t x ∧
      128 ≤ x.toNat ∧ x.toNat < 192 ∧ coded rest = reference rest := by
  obtain ⟨t, x, rest, rfl, token, high'⟩ := exists_token_of_high same high
  rw [coded_token token, token.reference, latin_high high'] at same
  by_cases small : x.toNat < 192
  · rw [if_pos small, List.cons_append, List.singleton_append] at same
    obtain ⟨rfl, same₁⟩ := List.cons.inj same
    exact ⟨rfl, t, x, rest, rfl, token, high', small, (List.cons.inj same₁).2⟩
  · rw [if_neg small] at same
    have second := (List.cons.inj (List.cons.inj same).2).1
    have bound := x.toNat_lt
    have value := congrArg UInt8.toNat second
    change (x.toNat - 64) % 256 = x.toNat at value
    omega

/-- The reference is behind by a character of two bytes. -/
theorem behind_two {r : Bytes} {hi lo : UInt8} (high : 128 ≤ hi.toNat)
    (same : coded r = hi :: lo :: reference r) : hi = 0xC3 ∧ lo = 0x82 ∧
      ∃ t t' x rest, r = t ++ (t' ++ rest) ∧ Token t 0xC2 ∧ Token t' x ∧
        128 ≤ x.toNat ∧ x.toNat < 192 ∧ coded rest = reference rest := by
  obtain ⟨t, v, rest, rfl, token, high'⟩ := exists_token_of_high same high
  obtain ⟨e, e', two, -, -⟩ := exists_latin high'
  rw [coded_token token, token.reference, two, List.cons_append, List.singleton_append] at same
  obtain ⟨rfl, same₁⟩ := List.cons.inj same
  obtain ⟨rfl, same₂⟩ := List.cons.inj same₁
  obtain ⟨rfl, t', x, rest, rfl, token', bounds⟩ := behind_one high' same₂
  have code : latin 0xC2 = [0xC3, 0x82] := by decide
  rw [code] at two
  cases two
  exact ⟨rfl, rfl, t, t', x, rest, rfl, token, token', bounds⟩

/-! ### The texts that are decoded as in the reference -/

/-- An ASCII digit from `0` to `9`. -/
def Decimal (d : UInt8) : Prop := 48 ≤ d.toNat ∧ d.toNat ≤ 57

/-- The texts that are decoded as in the reference: no token gives a byte that is not ASCII, and a
`%` without digits is the last byte or is followed by what hides that two bytes are swallowed. -/
inductive Agrees : Bytes → Prop where
  | nil : Agrees []
  | last : Agrees [37]
  | token {t rest : Bytes} {v : UInt8} (token : Token t v) (ascii : v.toNat < 128)
      (next : Agrees rest) : Agrees (t ++ rest)
  /-- `%%3d`: the loop swallows `%3` and reads `d`, the reference reads `%3d`, which is `d`. -/
  | percent {d : UInt8} {rest : Bytes} (decimal : Decimal d) (next : Agrees rest) :
      Agrees (37 :: 37 :: 51 :: d :: rest)
  /-- `%3%3d`: the loop swallows `3%` and reads `3d`. -/
  | digit {d : UInt8} {rest : Bytes} (decimal : Decimal d) (next : Agrees rest) :
      Agrees (37 :: 51 :: 37 :: 51 :: d :: rest)
  /-- The loop swallows a character, and the next byte is taken for that character. -/
  | latin {t t' rest : Bytes} {x : UInt8} (first : Token t 0xC2) (second : Token t' x)
      (high : 128 ≤ x.toNat) (small : x.toNat < 192) (next : Agrees rest) :
      Agrees (37 :: 0xC3 :: 0x82 :: (t ++ (t' ++ rest)))

theorem hexDigit_decimal {d : UInt8} (decimal : Decimal d) : hexDigit d = some (d.toNat - 48) := by
  have here : 48 ≤ d.toNat ∧ d.toNat ≤ 57 := decimal
  rw [hexDigit, hexVal, if_pos here]
  rfl

theorem hexPair_decimal {d : UInt8} (decimal : Decimal d) : hexPair 51 d = some d := by
  have three : hexDigit 51 = some 3 := rfl
  have value : 16 * 3 + (d.toNat - 48) = d.toNat := by
    have bound := decimal.1
    omega
  rw [hexPair, three, hexDigit_decimal decimal]
  change some (UInt8.ofNat (16 * 3 + (d.toNat - 48))) = _
  rw [value, UInt8.ofNat_toNat]

/-- The digits that stand for the last of them. -/
theorem decimal_of_hexPair {hi lo : UInt8} (pair : hexPair hi lo = some lo) :
    hi = 51 ∧ Decimal lo := by
  obtain ⟨high, low, first, second, value⟩ := hexPair_eq_some pair
  obtain ⟨-, first⟩ := hexDigit_eq_some first
  obtain ⟨-, second⟩ := hexDigit_eq_some second
  have three : hi.toNat = 51 := by omega
  exact ⟨UInt8.toNat_inj.mp three, by omega, by omega⟩

theorem coded_percent {hi lo : UInt8} {rest : Bytes} (unread : pairByte hi lo = none)
    (unpaired : hexPair hi lo = none) : coded (37 :: hi :: lo :: rest) = 37 :: coded rest := by
  rw [coded_swallowed unpaired, unread]
  rfl

theorem Agrees.coded_eq {r : Bytes} (agrees : Agrees r) : coded r = reference r := by
  induction agrees with
  | nil => rfl
  | last => exact coded_last
  | token token ascii _ ih => rw [coded_low token ascii, token.reference, ih]
  | percent decimal _ ih =>
    have escape := Token.escape (hexPair_decimal decimal)
    rw [coded_percent rfl rfl, coded_digit (hexDigit_decimal decimal), ih,
      reference_swallowed rfl]
    exact congrArg _ escape.reference.symm
  | digit decimal _ ih =>
    have escape := Token.escape (hexPair_decimal decimal)
    have three : hexDigit 51 = some 3 := rfl
    rw [coded_percent rfl rfl, coded_digit three, coded_digit (hexDigit_decimal decimal), ih,
      reference_swallowed rfl, reference_cons (by decide)]
    exact congrArg (fun bs => 37 :: 51 :: bs) escape.reference.symm
  | latin first second high small _ ih =>
    rw [coded_percent rfl rfl, coded_token first, coded_token second, latin_high high, if_pos small,
      ih, reference_swallowed rfl, reference_cons (by decide), reference_cons (by decide),
      first.reference, second.reference]
    rfl

theorem reference_ne_nil (b : UInt8) : reference [b] ≠ [] := by
  by_cases percent : b = 37
  · subst percent
    exact List.cons_ne_nil _ _
  · rw [reference_cons percent]
    exact List.cons_ne_nil _ _

theorem plus_eq_three {b : UInt8} (three : plus b = 51) : b = 51 := by
  unfold plus at three
  split at three
  · cases three
  · exact three

section Swallowed

variable {hi lo : UInt8} {rest : Bytes}
  (shorter : ∀ r : Bytes, r.length < rest.length → coded r = reference r → Agrees r)
include shorter

/-- The loop has swallowed a `%` and another byte. -/
theorem agrees_percent (same : coded rest = reference (37 :: lo :: rest)) :
    Agrees (37 :: 37 :: lo :: rest) := by
  have all : ∀ r' : Bytes, r'.length ≤ rest.length → Lags r' := fun r' _ => lags r'
  obtain ⟨hi, d, v, rest', here, pair, read⟩ | kept := reference_percent (lo :: rest)
  · obtain ⟨rfl, rfl⟩ := List.cons.inj here
    obtain ⟨high, low, -, second, -⟩ := hexPair_eq_some pair
    rw [read, coded_digit second] at same
    obtain ⟨rfl, same₁⟩ := List.cons.inj same
    obtain ⟨rfl, decimal⟩ := decimal_of_hexPair pair
    exact .percent decimal (shorter rest' (Nat.lt_succ_self _) same₁)
  · rw [kept] at same
    by_cases percent : lo = 37
    · subst percent
      have mem : (37 : UInt8) ∈ [37] := List.mem_singleton.mpr rfl
      exact absurd same (lags_percent all mem)
    · rw [reference_cons percent] at same
      exact absurd same (lags rest [37, plus lo] ⟨37, List.mem_cons_self, by decide⟩)

/-- The loop has swallowed two ASCII bytes, the first of which is no `%`. -/
theorem agrees_digit (ascii : hi.toNat < 128) (other : hi ≠ 37)
    (same : coded rest = plus hi :: reference (lo :: rest)) : Agrees (37 :: hi :: lo :: rest) := by
  have low := plus_low ascii
  by_cases percent : lo = 37
  · subst percent
    obtain ⟨three, d, v, rest', rfl, pair, read⟩ | kept := reference_percent rest
    · obtain ⟨high, low, first, second, -⟩ := hexPair_eq_some pair
      rw [read, coded_digit first, coded_digit second] at same
      obtain ⟨here, same₁⟩ := List.cons.inj same
      obtain ⟨rfl, same₂⟩ := List.cons.inj same₁
      obtain ⟨rfl, decimal⟩ := decimal_of_hexPair pair
      obtain rfl := plus_eq_three here.symm
      refine .digit decimal (shorter rest' ?_ same₂)
      simp only [List.length_cons]
      omega
    · rw [kept] at same
      exact absurd same (lags rest [plus hi, 37] ⟨plus hi, List.mem_cons_self, low⟩)
  · rw [reference_cons percent] at same
    exact absurd same (lags rest [plus hi, plus lo] ⟨plus hi, List.mem_cons_self, low⟩)

end Swallowed

/-- The loop has swallowed a character of two bytes. -/
theorem agrees_latin {hi lo : UInt8} {rest : Bytes} (first : 0xC2 ≤ hi) (second : 0x80 ≤ lo)
    (shorter : ∀ r : Bytes, r.length < rest.length → coded r = reference r → Agrees r)
    (same : coded rest = reference (hi :: lo :: rest)) : Agrees (37 :: hi :: lo :: rest) := by
  have high : 0xC2 ≤ hi.toNat := UInt8.le_iff_toNat_le.mp first
  have high' : 0x80 ≤ lo.toNat := UInt8.le_iff_toNat_le.mp second
  have apart : ∀ b : UInt8, 128 ≤ b.toNat → b ≠ 37 ∧ plus b = b := by
    refine fun b high => ⟨fun same => ?_, if_neg fun same => ?_⟩
    · exact absurd (same ▸ high) (by decide)
    · exact absurd (same ▸ high) (by decide)
  have hiApart := apart hi (by omega)
  have loApart := apart lo high'
  rw [reference_cons hiApart.1, hiApart.2, reference_cons loApart.1, loApart.2] at same
  obtain ⟨rfl, rfl, t, t', x, rest, rfl, token, token', high, small, same⟩ :=
    behind_two (by omega) same
  refine .latin token token' high small (shorter rest ?_ same)
  have pos := token.length_pos
  rw [List.length_append, List.length_append]
  omega

/-- Whatever is decoded as in the reference is one of these texts. The proof is by the length. -/
theorem agrees_of_coded_eq (r : Bytes) (same : coded r = reference r) : Agrees r := by
  induction n : r.length using Nat.strong_induction_on generalizing r with
  | _ n ih =>
    subst n
    have shorter : ∀ r' : Bytes, r'.length < r.length → coded r' = reference r' → Agrees r' :=
      fun r' less same => ih _ less r' same rfl
    cases view r with
    | nil => exact .nil
    | last => exact .last
    | short =>
      rename_i b
      have read : reference [37, b] = 37 :: reference [b] := rfl
      rw [coded_short, read] at same
      exact absurd (List.cons.inj same).2.symm (reference_ne_nil b)
    | token token =>
      rename_i t rest v
      by_cases ascii : v.toNat < 128
      · rw [coded_low token ascii, token.reference] at same
        refine .token token ascii (shorter rest ?_ (List.cons.inj same).2)
        rw [List.length_append]
        exact Nat.lt_add_of_pos_left token.length_pos
      · exact absurd same (coded_ne_of_high token (Nat.le_of_not_lt ascii))
    | swallowed unpaired =>
      rename_i hi lo rest
      rw [coded_swallowed unpaired, reference_swallowed unpaired] at same
      obtain ⟨pushed, same⟩ := List.cons.inj same
      have unread : pairByte hi lo = none := by
        cases read : pairByte hi lo with
        | none => rfl
        | some v =>
          rw [read, Option.getD_some] at pushed
          subst pushed
          exact absurd (pairByte_small unpaired read) (by decide)
      have shorter' : ∀ r' : Bytes, r'.length < rest.length → coded r' = reference r' →
          Agrees r' := fun r' less => shorter r' (by simp only [List.length_cons]; omega)
      have utf8 := isUtf8Pair_of_unread unread
      simp only [isUtf8Pair, Bool.or_eq_true, Bool.and_eq_true, decide_eq_true_eq] at utf8
      rcases utf8 with ⟨ascii, -⟩ | ⟨⟨⟨first, -⟩, second⟩, -⟩
      · by_cases percent : hi = 37
        · subst percent
          exact agrees_percent shorter' same
        · rw [reference_cons percent] at same
          exact agrees_digit shorter' (UInt8.lt_iff_toNat_lt.mp ascii) percent same
      · exact agrees_latin first second shorter' same

theorem coded_eq_iff {r : Bytes} : coded r = reference r ↔ Agrees r :=
  ⟨agrees_of_coded_eq r, fun agrees => agrees.coded_eq⟩

/-- What is decoded has no replacement characters. -/
theorem replacement_not_mem (s : String) :
    Char.ofNat 0xFFFD ∉ (percentDecode s).toList := by
  intro mem
  rw [percentDecode, String.toList_ofList, List.mem_map] at mem
  obtain ⟨b, -, same⟩ := mem
  have value : ∀ n < 256, byteChar (.ofNat n) ≠ Char.ofNat 0xFFFD := by decide +kernel
  have here := value b.toNat b.toNat_lt
  rw [UInt8.ofNat_toNat] at here
  exact here same

/-- The bytes of the reference, read as UTF-8, are what is decoded iff its bytes are they. -/
theorem percentDecode_eq_lossy_iff (s : String) :
    percentDecode s = fromUtf8Lossy (reference (asBytes s)) ↔ Agrees (asBytes s) := by
  rw [← coded_eq_iff, ← asBytes_percentDecode]
  constructor
  · intro same
    have clean := replacement_not_mem s
    rw [same] at clean ⊢
    exact asBytes_fromUtf8Lossy clean
  · intro same
    rw [← same, fromUtf8Lossy_asBytes]

/-! ### Texts that have been encoded -/

theorem hexDigit_upperDigit : ∀ n < 16, hexDigit (upperDigit n) = some n := by decide

theorem upperDigit_low : ∀ n < 16, (upperDigit n).toNat < 128 := by decide

theorem hexPair_upperDigit (b : UInt8) :
    hexPair (upperDigit (b.toNat / 16)) (upperDigit (b.toNat % 16)) = some b := by
  have bound := b.toNat_lt
  rw [hexPair, hexDigit_upperDigit _ (by omega), hexDigit_upperDigit _ (by omega)]
  change some (UInt8.ofNat (16 * (b.toNat / 16) + b.toNat % 16)) = some b
  rw [Nat.div_add_mod, UInt8.ofNat_toNat]

theorem isUnreserved_ascii {b : UInt8} (unreserved : isUnreserved b = true) :
    b.toNat < 128 ∧ b ≠ 37 ∧ b ≠ 43 := by
  have table : ∀ n < 256, isUnreserved (.ofNat n) = true →
      n < 128 ∧ UInt8.ofNat n ≠ 37 ∧ UInt8.ofNat n ≠ 43 := by decide +kernel
  have entry := table b.toNat b.toNat_lt
  rw [UInt8.ofNat_toNat] at entry
  exact entry unreserved

/-- A byte that is encoded is a token for itself. -/
theorem token_encByte (b : UInt8) : Token (encByte b) b := by
  unfold encByte
  split
  · rename_i unreserved
    obtain ⟨-, percent, unsigned⟩ := isUnreserved_ascii unreserved
    have token : Token [b] (plus b) := .raw percent
    rwa [plus, if_neg unsigned] at token
  · exact .escape (hexPair_upperDigit b)

theorem encByte_low {b : UInt8} : ∀ e ∈ encByte b, e.toNat < 128 := by
  have bound := b.toNat_lt
  unfold encByte
  split
  · rename_i unreserved
    simpa using (isUnreserved_ascii unreserved).1
  · have first := upperDigit_low (b.toNat / 16) (by omega)
    have second := upperDigit_low (b.toNat % 16) (by omega)
    simpa using ⟨first, second⟩

theorem flatMap_latin_of_low {bs : Bytes} (low : ∀ b ∈ bs, b.toNat < 128) :
    bs.flatMap latin = bs := by
  induction bs with
  | nil => rfl
  | cons b bs ih =>
    obtain ⟨first, later⟩ := List.forall_mem_cons.mp low
    rw [List.flatMap_cons, latin_low first, ih later, List.singleton_append]

theorem asBytes_enc (s : String) : asBytes (enc s) = (asBytes s).flatMap encByte := by
  have low : ∀ e ∈ (asBytes s).flatMap encByte, e.toNat < 128 := by
    intro e mem
    obtain ⟨b, -, mem⟩ := List.mem_flatMap.mp mem
    exact encByte_low e mem
  have bytes : asBytes (enc s) = ((asBytes s).flatMap encByte).flatMap latin := by
    rw [asBytes, enc, String.toList_ofList, List.flatMap_map]
    rfl
  rw [bytes, flatMap_latin_of_low low]

theorem decodeLoop_encoded (bs : Bytes) : decodeLoop (bs.flatMap encByte) = bs := by
  induction bs with
  | nil => rfl
  | cons b bs ih => rw [List.flatMap_cons, (token_encByte b).decodeLoop, ih]

theorem reference_encoded (bs : Bytes) : reference (bs.flatMap encByte) = bs := by
  induction bs with
  | nil => rfl
  | cons b bs ih => rw [List.flatMap_cons, (token_encByte b).reference, ih]

/-- The reference undoes the encoding. -/
theorem reference_enc (s : String) : fromUtf8Lossy (reference (asBytes (enc s))) = s := by
  rw [asBytes_enc, reference_encoded, fromUtf8Lossy_asBytes]

theorem length_le_flatMap_latin (bs : Bytes) : bs.length ≤ (bs.flatMap latin).length := by
  induction bs with
  | nil => exact Nat.le_refl _
  | cons b bs ih =>
    have size := (byteChar b).utf8Size_pos
    rw [List.flatMap_cons, List.length_append, latin, String.length_utf8EncodeChar,
      List.length_cons]
    omega

theorem flatMap_latin_eq_iff {bs : Bytes} :
    bs.flatMap latin = bs ↔ ∀ b ∈ bs, b.toNat < 128 := by
  refine ⟨fun same => ?_, flatMap_latin_of_low⟩
  induction bs with
  | nil => exact List.forall_mem_nil _
  | cons b bs ih =>
    rw [List.flatMap_cons] at same
    by_cases low : b.toNat < 128
    · rw [latin_low low, List.singleton_append] at same
      exact List.forall_mem_cons.mpr ⟨low, ih (List.cons.inj same).2⟩
    · obtain ⟨e, e', two, -, -⟩ := exists_latin (Nat.le_of_not_lt low)
      have lengths := congrArg List.length same
      have longer := length_le_flatMap_latin bs
      rw [two, List.length_append, List.length_cons, List.length_cons, List.length_nil,
        List.length_cons] at lengths
      omega

/-- An encoded text is decoded to itself iff it is ASCII. -/
theorem percentDecode_enc_iff (s : String) :
    percentDecode (enc s) = s ↔ ∀ b ∈ asBytes s, b.toNat < 128 := by
  have bytes : asBytes (percentDecode (enc s)) = (asBytes s).flatMap latin := by
    rw [asBytes_percentDecode, coded, asBytes_enc, decodeLoop_encoded]
  rw [← flatMap_latin_eq_iff, ← bytes]
  constructor
  · intro same
    rw [same]
  · intro same
    rw [← fromUtf8Lossy_asBytes (percentDecode (enc s)), same, fromUtf8Lossy_asBytes]

/-- **A path is decoded as in the reference iff** it is one of the texts of `Agrees`; a text that
has been encoded is decoded to itself iff it is ASCII. -/
theorem percentDecode_iff (s : String) :
    (percentDecode s = fromUtf8Lossy (reference (asBytes s)) ↔ Agrees (asBytes s)) ∧
      (percentDecode (enc s) = s ↔ ∀ b ∈ asBytes s, b.toNat < 128) :=
  ⟨percentDecode_eq_lossy_iff s, percentDecode_enc_iff s⟩

/-- A letter that is not ASCII becomes two letters, and what follows a `%` is swallowed. -/
theorem percentDecode_mistaken : enc "é" = "%C3%A9" ∧ percentDecode "%C3%A9" = "Ã©" ∧
    fromUtf8Lossy (reference (asBytes "%C3%A9")) = "é" ∧
    percentDecode "%%41" = "%1" ∧ fromUtf8Lossy (reference (asBytes "%%41")) = "%A" := by
  decide +kernel

end Lunad
