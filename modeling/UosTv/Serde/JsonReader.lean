import UosTv.Rust.Numbers
import UosTv.Serde.Json

/-!
A reader of JSON text.

It reads every text that renders a value as that value (`readText_of_renders`): whatever the
white space is, and in whatever order the entries of the objects are.
-/

namespace SerdeJson

open Rust

/-- A reader of a piece at the beginning of a text. -/
abbrev Reader (α : Type) := List Char → Option (α × List Char)

def skipSpace (cs : List Char) : List Char := cs.dropWhile isSpace

/-- The characters of a string up to its closing quotation mark. -/
def readChars : Nat → Reader (List Char)
  | 0, _ => none
  | _ + 1, '"' :: rest => some ([], rest)
  | fuel + 1, cs => do
    let (c, rest) ← unescapeHead cs
    let (cs, rest) ← readChars fuel rest
    some (c :: cs, rest)

def readDigits (wrap : Nat → Number) : Reader Value := fun cs =>
  match cs.takeWhile Char.isDigit with
  | [] => none
  | ds => some (.number (wrap (decimal ds)), cs.dropWhile Char.isDigit)

def readLiteral (word : List Char) (v : Value) : Reader Value := fun cs =>
  if word <+: cs then some (v, cs.drop word.length) else none

/-- A value with the white space around it. -/
def readItem (read : Reader Value) : Reader Value := fun cs => do
  let (v, rest) ← read (skipSpace cs)
  some (v, skipSpace rest)

/-- A key, a colon and a value. -/
def readEntry (read : Reader Value) : Reader (String × Value) := fun cs =>
  match skipSpace cs with
  | '"' :: cs => do
    let (key, rest) ← readChars cs.length cs
    match skipSpace rest with
    | ':' :: rest => do
      let (v, rest) ← readItem read rest
      some ((String.ofList key, v), rest)
    | _ => none
  | _ => none

/-- One or more pieces, separated by commas, up to the closing character. -/
def readList {α : Type} (close : Char) (readOne : Reader α) : Nat → Reader (List α)
  | 0, _ => none
  | fuel + 1, cs => do
    match ← readOne cs with
    | (a, ',' :: rest) => do
      let (as, rest) ← readList close readOne fuel rest
      some (a :: as, rest)
    | (a, c :: rest) => if c = close then some ([a], rest) else none
    | (_, []) => none

/-- Any number of pieces, up to the closing character. -/
def readWithin {α : Type} (close : Char) (readOne : Reader α) : Reader (List α) := fun cs =>
  match skipSpace cs with
  | [] => none
  | c :: rest => if c = close then some ([], rest) else readList close readOne cs.length cs

/-- A value that begins at once. -/
def readValue : Nat → Reader Value
  | 0, _ => none
  | _ + 1, [] => none
  | fuel + 1, c :: cs =>
    if c.isDigit then readDigits (fun n => .posInt (.ofNat n)) (c :: cs)
    else if c = '-' then readDigits (fun n => .negInt (.ofInt (-n))) cs
    else if c = 'n' then readLiteral "ull".toList .null cs
    else if c = 't' then readLiteral "rue".toList (.bool true) cs
    else if c = 'f' then readLiteral "alse".toList (.bool false) cs
    else if c = '"' then
      (readChars cs.length cs).map fun r => (.string (String.ofList r.1), r.2)
    else if c = '[' then
      (readWithin ']' (readItem (readValue fuel)) cs).map fun r => (.array r.1, r.2)
    else if c = '{' then
      (readWithin '}' (readEntry (readValue fuel)) cs).map fun r => (.object (collect r.1), r.2)
    else none

/-- A whole text. -/
def readText (text : List Char) : Option Value :=
  match readItem (readValue text.length) text with
  | some (v, []) => some v
  | _ => none

/-! ### Tokens -/

variable {cs rest spaces : List Char}

/-- The text goes on with no digit. -/
def NoDigit (cs : List Char) : Prop := ∀ c ∈ cs.head?, c.isDigit = false

/-- The text goes on with no white space. -/
def NoSpace (cs : List Char) : Prop := ∀ c ∈ cs.head?, isSpace c = false

theorem skipSpace_append (blank : spaces.all isSpace) (stops : NoSpace rest) :
    skipSpace (spaces ++ rest) = rest := by
  unfold skipSpace
  rw [List.dropWhile_append_of_pos (by simpa using blank)]
  cases rest with
  | nil => rfl
  | cons c rest => rw [List.dropWhile_cons_of_neg (by simp [stops c rfl])]

theorem escapeChar_head (c : Char) (rest : List Char) :
    ∃ c' cs, escapeChar c ++ rest = c' :: cs ∧ c' ≠ '"' := by
  have escaped : ∀ cs : List Char, ∃ c' cs', '\\' :: cs ++ rest = c' :: cs' ∧ c' ≠ '"' :=
    fun cs => ⟨'\\', cs ++ rest, rfl, by decide⟩
  unfold escapeChar
  by_cases quote : c = '"'
  · rw [if_pos quote]
    exact escaped _
  · rw [if_neg quote]
    iterate 7
      apply iteInduction (motive := fun cs => ∃ c' cs', cs ++ rest = c' :: cs' ∧ c' ≠ '"')
        fun _ => escaped _
      intro _
    exact ⟨c, rest, rfl, quote⟩

theorem readChars_escaped (fuel : Nat) (enough : cs.length < fuel) :
    readChars fuel (cs.flatMap escapeChar ++ '"' :: rest) = some (cs, rest) := by
  induction cs generalizing fuel with
  | nil =>
    obtain ⟨fuel, rfl⟩ := Nat.exists_eq_succ_of_ne_zero (by omega : fuel ≠ 0)
    rfl
  | cons c cs ih =>
    obtain ⟨fuel, rfl⟩ := Nat.exists_eq_succ_of_ne_zero (by omega : fuel ≠ 0)
    rw [List.flatMap_cons, List.append_assoc]
    obtain ⟨c', cs', split, other⟩ := escapeChar_head c (cs.flatMap escapeChar ++ '"' :: rest)
    have head := unescapeHead_escapeChar c (cs.flatMap escapeChar ++ '"' :: rest)
    rw [split] at head ⊢
    rw [readChars, head]
    · simp [ih fuel (by simpa using enough)]
    · rintro _ same
      exact other (List.cons.inj same).1

/-! ### Numbers -/

theorem isDigit_of_mem_digits {n : Nat} {c : Char} (mem : c ∈ digits n) : c.isDigit = true :=
  Nat.isDigit_of_mem_toDigits (by omega) (by omega) mem

theorem decimal_digits (n : Nat) : decimal (digits n) = n := by
  have read := Nat.ofDigitChars_ten_toDigits (n := n)
  rwa [Nat.ofDigitChars_eq_foldl] at read

theorem takeWhile_digits (n : Nat) (stops : NoDigit rest) :
    (digits n ++ rest).takeWhile Char.isDigit = digits n ∧
      (digits n ++ rest).dropWhile Char.isDigit = rest := by
  rw [List.takeWhile_append_of_pos fun c mem => isDigit_of_mem_digits mem,
    List.dropWhile_append_of_pos fun c mem => isDigit_of_mem_digits mem]
  cases rest with
  | nil => simp
  | cons c rest => simp [stops c rfl]

theorem readDigits_digits (wrap : Nat → Number) (n : Nat) (stops : NoDigit rest) :
    readDigits wrap (digits n ++ rest) = some (.number (wrap n), rest) := by
  obtain ⟨taken, dropped⟩ := takeWhile_digits n stops
  unfold readDigits
  rw [taken, dropped]
  split
  · exact absurd ‹digits n = []› Nat.toDigits_ne_nil
  · rw [decimal_digits]

/-! ### Pieces between commas -/

section Lists

variable {α : Type} {close : Char} {readOne : Reader α} {fuel : Nat} {text more : List Char} {a : α}
  {as : List α}

theorem readList_last (comma : close ≠ ',')
    (one : readOne (text ++ close :: rest) = some (a, close :: rest)) :
    readList close readOne (fuel + 1) (text ++ close :: rest) = some ([a], rest) := by
  rw [readList, one]
  simp

theorem readList_more (one : readOne (text ++ ',' :: more) = some (a, ',' :: more))
    (others : readList close readOne fuel more = some (as, rest)) :
    readList close readOne (fuel + 1) (text ++ ',' :: more) = some (a :: as, rest) := by
  rw [readList, one]
  simp [others]

theorem readWithin_nil (blank : spaces.all isSpace) (solid : isSpace close = false) :
    readWithin close readOne (spaces ++ close :: rest) = some ([], rest) := by
  unfold readWithin
  rw [skipSpace_append blank fun c mem => by rwa [← Option.mem_some.mp mem]]
  exact if_pos rfl

theorem readWithin_list {c : Char} {inner : List Char} (skipped : skipSpace cs = c :: inner)
    (other : c ≠ close) (read : readList close readOne cs.length cs = some (as, rest)) :
    readWithin close readOne cs = some (as, rest) := by
  unfold readWithin
  rw [skipped]
  exact (if_neg other).trans read

end Lists

/-! ### Every text that renders a value is read -/

/-- What may follow a value: nothing, a comma or a closing character. -/
def Stops (cs : List Char) : Prop := ∀ c ∈ cs.head?, c = ',' ∨ c = ']' ∨ c = '}'

theorem Stops.noDigit (stops : Stops cs) : NoDigit cs := by
  intro c mem
  rcases stops c mem with rfl | rfl | rfl <;> rfl

theorem Stops.noSpace (stops : Stops cs) : NoSpace cs := by
  intro c mem
  rcases stops c mem with rfl | rfl | rfl <;> rfl

/-- The text begins with white space and then with a character that closes nothing. -/
def Opens (text : List Char) : Prop :=
  ∃ spaces c inner, text = spaces ++ c :: inner ∧ spaces.all isSpace ∧ isSpace c = false ∧
    c ≠ ']' ∧ c ≠ '}'

/-- The text is read as the pieces, up to the closing character. -/
def ReadAll {α : Type} (close : Char) (readOne : Reader α) (as : List α) (text : List Char) : Prop :=
  ∀ rest, readWithin close readOne (text ++ close :: rest) = some (as, rest) ∧
    (as ≠ [] → ∀ fuel, text.length < fuel →
      readList close readOne fuel (text ++ close :: rest) = some (as, rest))

/-- The reader reads the text as the part. -/
def Read : Part → List Char → Prop
  | .value v, text => (∃ c inner, text = c :: inner ∧ isSpace c = false ∧ c ≠ ']' ∧ c ≠ '}') ∧
    ∀ fuel rest, text.length ≤ fuel → NoDigit rest → readValue fuel (text ++ rest) = some (v, rest)
  | .item v, text => Opens text ∧ ∀ fuel rest, text.length ≤ fuel → Stops rest →
    readItem (readValue fuel) (text ++ rest) = some (v, rest)
  | .items vs, text => ∀ fuel, text.length ≤ fuel →
    ReadAll ']' (readItem (readValue fuel)) vs text
  | .entry key v, text => Opens text ∧ ∀ fuel rest, text.length ≤ fuel → Stops rest →
    readEntry (readValue fuel) (text ++ rest) = some ((key, v), rest)
  | .entries es, text => ∀ fuel, text.length ≤ fuel →
    ReadAll '}' (readEntry (readValue fuel)) es text

theorem Stops.noDigit_append (stops : Stops rest) (blank : spaces.all isSpace) :
    NoDigit (spaces ++ rest) := by
  cases spaces with
  | nil => exact stops.noDigit
  | cons s spaces =>
    rintro c ⟨⟩
    have space : isSpace s = true := by
      rw [List.all_cons, Bool.and_eq_true] at blank
      exact blank.1
    simp only [isSpace, decide_eq_true_eq] at space
    rcases space with rfl | rfl | rfl | rfl <;> rfl

section Parts

variable {v : Value} {key : String} {text before after more : List Char} {vs : List Value}
  {es : List (String × Value)}

theorem Opens.append (opens : Opens text) (after : List Char) : Opens (text ++ after) := by
  obtain ⟨spaces, c, inner, rfl, blank, closes⟩ := opens
  exact ⟨spaces, c, inner ++ after, by simp, blank, closes⟩

theorem Opens.skipSpace (opens : Opens text) :
    ∃ c inner, skipSpace text = c :: inner ∧ c ≠ ']' ∧ c ≠ '}' := by
  obtain ⟨spaces, c, inner, rfl, blank, solid, notBracket, notBrace⟩ := opens
  refine ⟨c, inner, skipSpace_append blank ?_, notBracket, notBrace⟩
  intro c' mem
  rwa [← Option.mem_some.mp mem]

theorem Read.item (read : Read (.value v) text) (spaces : before.all isSpace)
    (spaces' : after.all isSpace) : Read (.item v) (before ++ (text ++ after)) := by
  obtain ⟨⟨c, inner, rfl, solid, closes⟩, reads⟩ := read
  refine ⟨⟨before, c, inner ++ after, rfl, spaces, solid, closes⟩, fun fuel rest enough stops => ?_⟩
  have within : (c :: inner).length ≤ fuel := by
    simp only [List.length_append] at enough
    omega
  have value := reads fuel _ within (stops.noDigit_append spaces')
  unfold readItem
  rw [List.append_assoc, List.append_assoc, skipSpace_append spaces, value]
  · simp [skipSpace_append spaces' stops.noSpace]
  · intro c' mem
    rwa [← Option.mem_some.mp mem]

theorem Read.entry (read : Read (.item v) text) (spaces : before.all isSpace)
    (spaces' : after.all isSpace) :
    Read (.entry key v) (before ++ ((quoted key).toList ++ (after ++ ':' :: text))) := by
  obtain ⟨-, reads⟩ := read
  rw [toList_quoted]
  refine ⟨⟨before, '"', _, rfl, spaces, rfl, by decide, by decide⟩, fun fuel rest enough stops => ?_⟩
  have within : text.length ≤ fuel := by
    simp only [List.length_append, List.length_cons] at enough
    omega
  have item := reads fuel rest within stops
  have longer := length_le_length_escape key.toList
  unfold readEntry
  rw [List.append_assoc, skipSpace_append spaces]
  · simp only [List.cons_append, List.append_assoc, List.nil_append]
    rw [readChars_escaped _ (by simp only [List.length_append, List.length_cons]; omega)]
    simp only [Option.bind_eq_bind, Option.bind_some, String.ofList_toList]
    rw [skipSpace_append spaces']
    · simp [item]
    · intro c mem
      rw [← Option.mem_some.mp mem]
      rfl
  · intro c mem
    rw [← Option.mem_some.mp mem]
    rfl

theorem stops_comma : Stops (',' :: cs) := by
  rintro c ⟨⟩
  exact .inl rfl

theorem stops_close {close : Char} (closes : close = ']' ∨ close = '}') : Stops (close :: cs) := by
  rintro c ⟨⟩
  exact .inr closes

end Parts

section Lists

variable {α : Type} {close : Char} {readOne : Reader α} {text more : List Char} {a b : α}
  {as : List α}

theorem ReadAll.nil (closes : close = ']' ∨ close = '}') (blank : spaces.all isSpace) :
    ReadAll close readOne [] spaces := by
  intro rest
  refine ⟨readWithin_nil blank ?_, fun some_item => absurd rfl some_item⟩
  rcases closes with rfl | rfl <;> rfl

theorem ReadAll.of_readList (closes : close = ']' ∨ close = '}') (opens : Opens text)
    (reads : ∀ rest fuel, text.length < fuel →
      readList close readOne fuel (text ++ close :: rest) = some (as, rest)) :
    ReadAll close readOne as text := by
  intro rest
  refine ⟨?_, fun _ => reads rest⟩
  obtain ⟨c, inner, skipped, notBracket, notBrace⟩ := (opens.append (close :: rest)).skipSpace
  refine readWithin_list skipped ?_ (reads rest _ ?_)
  · rcases closes with rfl | rfl
    · exact notBracket
    · exact notBrace
  · rw [List.length_append, List.length_cons]
    omega

theorem ReadAll.last (closes : close = ']' ∨ close = '}') (opens : Opens text)
    (one : ∀ rest, Stops rest → readOne (text ++ rest) = some (a, rest)) :
    ReadAll close readOne [a] text := by
  refine .of_readList closes opens fun rest fuel enough => ?_
  obtain ⟨fuel, rfl⟩ := Nat.exists_eq_succ_of_ne_zero (by omega : fuel ≠ 0)
  have comma : close ≠ ',' := by rcases closes with rfl | rfl <;> decide
  exact readList_last comma (one _ (stops_close closes))

theorem ReadAll.cons (closes : close = ']' ∨ close = '}') (opens : Opens text)
    (one : ∀ rest, Stops rest → readOne (text ++ rest) = some (a, rest))
    (others : ReadAll close readOne (b :: as) more) :
    ReadAll close readOne (a :: b :: as) (text ++ ',' :: more) := by
  refine .of_readList closes (opens.append _) fun rest fuel enough => ?_
  obtain ⟨fuel, rfl⟩ := Nat.exists_eq_succ_of_ne_zero (by omega : fuel ≠ 0)
  rw [List.append_assoc, List.cons_append]
  refine readList_more (one _ stops_comma) ((others rest).2 (List.cons_ne_nil _ _) fuel ?_)
  rw [List.length_append, List.length_cons] at enough
  omega

end Lists

/-! ### The whole text -/

theorem isSpace_of_isDigit {c : Char} (digit : c.isDigit = true) :
    isSpace c = false ∧ c ≠ ']' ∧ c ≠ '}' := by
  refine ⟨?_, ?_, ?_⟩
  · by_contra space
    simp only [Bool.not_eq_false, isSpace, decide_eq_true_eq] at space
    rcases space with rfl | rfl | rfl | rfl <;> cases digit
  · rintro rfl
    cases digit
  · rintro rfl
    cases digit

section Values

variable {v : Value} {c : Char} {inner : List Char}

theorem Read.of_succ (solid : isSpace c = false ∧ c ≠ ']' ∧ c ≠ '}')
    (reads : ∀ fuel rest, inner.length ≤ fuel → NoDigit rest →
      readValue (fuel + 1) (c :: (inner ++ rest)) = some (v, rest)) :
    Read (.value v) (c :: inner) := by
  refine ⟨⟨c, inner, rfl, solid⟩, fun fuel rest enough stops => ?_⟩
  cases fuel with
  | zero => cases enough
  | succ fuel => exact reads fuel rest (Nat.le_of_succ_le_succ enough) stops

theorem readLiteral_append (word rest : List Char) :
    readLiteral word v (word ++ rest) = some (v, rest) := by
  rw [readLiteral, if_pos (List.prefix_append _ _), List.drop_left]

theorem Read.posInt (n : UInt64) : Read (.value (.number (.posInt n))) (digits n.toNat) := by
  obtain ⟨d, ds, split⟩ := List.exists_cons_of_ne_nil (Nat.toDigits_ne_nil (n := n.toNat) (b := 10))
  have digit : d.isDigit = true := isDigit_of_mem_digits (split ▸ List.mem_cons_self)
  change digits n.toNat = _ at split
  rw [split]
  refine .of_succ (isSpace_of_isDigit digit) fun fuel rest enough stops => ?_
  rw [readValue, if_pos digit, ← List.cons_append, ← split, readDigits_digits _ _ stops,
    UInt64.ofNat_toNat]

theorem Read.negInt (n : Int64) (negative : n.toInt < 0) :
    Read (.value (.number (.negInt n))) ('-' :: digits n.toInt.natAbs) := by
  refine .of_succ (by decide) fun fuel rest enough stops => ?_
  have value : (-(n.toInt.natAbs : Int)) = n.toInt := by omega
  change readDigits (fun n => .negInt (.ofInt (-n))) (digits n.toInt.natAbs ++ rest) = _
  rw [readDigits_digits _ _ stops, value, Int64.ofInt_toInt]

theorem Read.string (s : String) : Read (.value (.string s)) (quoted s).toList := by
  rw [toList_quoted, List.cons_append]
  refine .of_succ (by decide) fun fuel rest enough stops => ?_
  have longer := length_le_length_escape s.toList
  change (readChars _ _).map _ = _
  rw [List.append_assoc, List.singleton_append, readChars_escaped]
  · simp
  · simp only [List.length_append, List.length_cons]
    omega

theorem Read.array {vs : List Value} (read : Read (.items vs) inner) :
    Read (.value (.array vs)) ('[' :: (inner ++ [']'])) := by
  refine .of_succ (by decide) fun fuel rest enough stops => ?_
  rw [List.length_append] at enough
  change (readWithin _ _ _).map _ = _
  rw [List.append_assoc, List.singleton_append, (read fuel (by omega) rest).1]
  rfl

theorem Read.object {fields es : List (String × Value)} (sorted : Sorted fields)
    (perm : es.Perm fields) (read : Read (.entries es) inner) :
    Read (.value (.object fields)) ('{' :: (inner ++ ['}'])) := by
  refine .of_succ (by decide) fun fuel rest enough stops => ?_
  rw [List.length_append] at enough
  change (readWithin _ _ _).map _ = _
  rw [List.append_assoc, List.singleton_append, (read fuel (by omega) rest).1, Option.map_some,
    collect_of_perm sorted perm]

end Values

/-- Every text that renders a part is read as that part. -/
theorem read_of_renders {part : Part} {text : List Char} (renders : Renders part text) :
    Read part text := by
  induction renders with
  | null => exact .of_succ (by decide) fun _ rest _ _ => readLiteral_append "ull".toList rest
  | true => exact .of_succ (by decide) fun _ rest _ _ => readLiteral_append "rue".toList rest
  | false => exact .of_succ (by decide) fun _ rest _ _ => readLiteral_append "alse".toList rest
  | posInt n => exact .posInt n
  | negInt n negative => exact .negInt n negative
  | string s => exact .string s
  | array items ih => exact ih.array
  | object sorted perm entries ih => exact ih.object sorted perm
  | item spaces value spaces' ih => exact ih.item spaces spaces'
  | noItems blank => exact fun _ _ => .nil (.inl rfl) blank
  | lastItem item ih =>
    obtain ⟨opens, reads⟩ := ih
    exact fun fuel enough => .last (.inl rfl) opens fun rest => reads fuel rest enough
  | moreItems item rest ih ihRest =>
    obtain ⟨opens, reads⟩ := ih
    intro fuel enough
    rw [List.length_append, List.length_cons] at enough
    exact .cons (.inl rfl) opens (fun rest => reads fuel rest (by omega)) (ihRest fuel (by omega))
  | entry spaces spaces' item ih => exact ih.entry spaces spaces'
  | noEntries blank => exact fun _ _ => .nil (.inr rfl) blank
  | lastEntry entry ih =>
    obtain ⟨opens, reads⟩ := ih
    exact fun fuel enough => .last (.inr rfl) opens fun rest => reads fuel rest enough
  | moreEntries entry rest ih ihRest =>
    obtain ⟨opens, reads⟩ := ih
    intro fuel enough
    rw [List.length_append, List.length_cons] at enough
    exact .cons (.inr rfl) opens (fun rest => reads fuel rest (by omega)) (ihRest fuel (by omega))

/-- A text that renders a value, with white space around it, is read as that value. -/
theorem readText_of_renders {v : Value} {text : List Char} (renders : Renders (.item v) text) :
    readText text = some v := by
  have read := (read_of_renders renders).2 text.length [] (Nat.le_refl _) (by rintro _ ⟨⟩)
  rw [List.append_nil] at read
  rw [readText, read]

/-- At most one value is rendered. -/
theorem Renders.unique {v w : Value} {text : List Char} (renders : Renders (.item v) text)
    (renders' : Renders (.item w) text) : v = w :=
  Option.some.inj ((readText_of_renders renders).symm.trans (readText_of_renders renders'))

end SerdeJson
