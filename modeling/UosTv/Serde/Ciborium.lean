import Mathlib.Tactic.NormNum
import Mathlib.Tactic.Ring
import UosTv.Rust.Hex

/-!
CBOR as `ciborium` writes it: items of definite length, with the shortest heads.

A head gives the kind of an item and a number, which is a value or a length. What is written
of an item is read back, whatever follows it (`readItem_encode`), as long as all lengths are
those of things in memory. Floating point numbers and tags are left out: nothing here writes
them.
-/

namespace Ciborium

open Rust

/-- A data item. `negative n` is `-1 - n`. -/
inductive Item where
  | unsigned (n : UInt64)
  | negative (n : UInt64)
  | bytes (bs : Bytes)
  | text (s : String)
  | array (items : List Item)
  | map (entries : List (Item × Item))
  | bool (b : Bool)
  | null

/-! ### Heads -/

/-- The low bits of the first byte: the number itself, or how many bytes it takes. -/
def info (n : Nat) : Nat :=
  if n < 24 then n
  else if n < 2 ^ 8 then 24
  else if n < 2 ^ 16 then 25
  else if n < 2 ^ 32 then 26
  else 27

/-- How many bytes follow the first. -/
def width (info : Nat) : Nat := if info < 24 then 0 else 2 ^ (info - 24)

/-- The lowest `count` bytes of a number, the highest of them first. -/
def bigEndian : Nat → Nat → Bytes
  | 0, _ => []
  | count + 1, n => .ofNat (n / 256 ^ count) :: bigEndian count n

/-- The number of these bytes. -/
def number (bs : Bytes) : Nat := bs.foldl (fun n b => 256 * n + b.toNat) 0

/-- The bytes of the number behind the first byte. -/
def argument (n : Nat) : Bytes := bigEndian (width (info n)) n

/-- The head of an item of major type `major`. -/
def head (major n : Nat) : Bytes := .ofNat (32 * major + info n) :: argument n

/-- The major type, the number and what follows the head. -/
def readHead : Bytes → Option (Nat × Nat × Bytes)
  | [] => none
  | b :: rest =>
    let info := b.toNat % 32
    if info < 24 then some (b.toNat / 32, info, rest)
    else if info ≤ 27 ∧ width info ≤ rest.length then
      some (b.toNat / 32, number (rest.take (width info)), rest.drop (width info))
    else none

section Heads

variable {n major count : Nat} {rest : Bytes}

theorem length_bigEndian (count n : Nat) : (bigEndian count n).length = count := by
  induction count with
  | zero => rfl
  | succ count ih => rw [bigEndian, List.length_cons, ih]

theorem number_bigEndian (count n : Nat) : number (bigEndian count n) = n % 256 ^ count := by
  have from_start : ∀ start, (bigEndian count n).foldl (fun n b => 256 * n + b.toNat) start =
      start * 256 ^ count + n % 256 ^ count := by
    induction count with
    | zero => simp [bigEndian, Nat.mod_one]
    | succ count ih =>
      intro start
      have byte : (UInt8.ofNat (n / 256 ^ count)).toNat = n / 256 ^ count % 256 := rfl
      rw [bigEndian, List.foldl_cons, ih, byte, Nat.mod_pow_succ, Nat.pow_succ]
      ring
  rw [number, from_start, Nat.zero_mul, Nat.zero_add]

theorem info_le (n : Nat) : info n ≤ 27 := by
  unfold info
  split_ifs <;> omega

theorem info_of_lt (small : n < 24) : info n = n := if_pos small

theorem le_info (large : 24 ≤ n) : 24 ≤ info n := by
  unfold info
  split_ifs <;> omega

theorem number_argument (large : 24 ≤ n) (small : n < 2 ^ 64) : number (argument n) = n := by
  rw [argument, number_bigEndian, Nat.mod_eq_of_lt]
  unfold info
  split_ifs <;> norm_num [width] <;> omega

theorem toNat_first (valid : major < 8) :
    (UInt8.ofNat (32 * major + info n)).toNat = 32 * major + info n := by
  have := info_le n
  exact UInt8.toNat_ofNat_of_lt' (by norm_num [UInt8.size]; omega)

theorem readHead_head (valid : major < 8) (small : n < 2 ^ 64) :
    readHead (head major n ++ rest) = some (major, n, rest) := by
  have bound := info_le n
  have low : (32 * major + info n) % 32 = info n := by omega
  have high : (32 * major + info n) / 32 = major := by omega
  rw [head, List.cons_append, readHead, toNat_first valid, low, high]
  by_cases immediate : n < 24
  · have none : argument n = [] := by simp [argument, width, info_of_lt immediate, immediate, bigEndian]
    rw [none, info_of_lt immediate, if_pos immediate, List.nil_append]
  · have large : 24 ≤ n := Nat.le_of_not_lt immediate
    have apart : ¬ info n < 24 := Nat.not_lt_of_le (le_info large)
    have length : (argument n).length = width (info n) := length_bigEndian _ _
    have room : info n ≤ 27 ∧ width (info n) ≤ (argument n ++ rest).length := by
      rw [List.length_append, length]
      exact ⟨bound, Nat.le_add_right _ _⟩
    simp only [if_neg apart, if_pos room]
    rw [List.take_left' length, List.drop_left' length, number_argument large small]

end Heads

/-! ### Items -/

mutual

/-- `ciborium::into_writer`. -/
def encode : Item → Bytes
  | .unsigned n => head 0 n.toNat
  | .negative n => head 1 n.toNat
  | .bytes bs => head 2 bs.length ++ bs
  | .text s => head 3 (asBytes s).length ++ asBytes s
  | .array items => head 4 items.length ++ encodeItems items
  | .map entries => head 5 entries.length ++ encodeEntries entries
  | .bool false => head 7 20
  | .bool true => head 7 21
  | .null => head 7 22

def encodeItems : List Item → Bytes
  | [] => []
  | item :: items => encode item ++ encodeItems items

def encodeEntries : List (Item × Item) → Bytes
  | [] => []
  | (key, value) :: entries => encode key ++ encode value ++ encodeEntries entries

end

mutual

/-- How deep arrays and maps are nested. -/
def levels : Item → Nat
  | .array items => levelsItems items + 1
  | .map entries => levelsEntries entries + 1
  | .unsigned _ | .negative _ | .bytes _ | .text _ | .bool _ | .null => 0

def levelsItems : List Item → Nat
  | [] => 0
  | item :: items => max (levels item) (levelsItems items)

def levelsEntries : List (Item × Item) → Nat
  | [] => 0
  | (key, value) :: entries => max (max (levels key) (levels value)) (levelsEntries entries)

end

/-- Lengths are those of things in memory. -/
inductive InMemory : Item → Prop
  | unsigned (n : UInt64) : InMemory (.unsigned n)
  | negative (n : UInt64) : InMemory (.negative n)
  | bytes {bs : Bytes} (short : bs.length < 2 ^ 63) : InMemory (.bytes bs)
  | text {s : String} (short : (asBytes s).length < 2 ^ 63) : InMemory (.text s)
  | array {items : List Item} (short : items.length < 2 ^ 63) (all : ∀ item ∈ items, InMemory item) :
    InMemory (.array items)
  | map {entries : List (Item × Item)} (short : entries.length < 2 ^ 63)
    (keys : ∀ e ∈ entries, InMemory e.1) (values : ∀ e ∈ entries, InMemory e.2) :
    InMemory (.map entries)
  | bool (b : Bool) : InMemory (.bool b)
  | null : InMemory .null

/-- A number of things one after the other. -/
def readMany {α : Type} (read : Bytes → Option (α × Bytes)) : Nat → Bytes → Option (List α × Bytes)
  | 0, bs => some ([], bs)
  | count + 1, bs => do
    let (a, bs) ← read bs
    let (as, bs) ← readMany read count bs
    some (a :: as, bs)

def readPair (read : Bytes → Option (Item × Bytes)) (bs : Bytes) : Option ((Item × Item) × Bytes) := do
  let (key, bs) ← read bs
  let (value, bs) ← read bs
  some ((key, value), bs)

/-- A reader of items that are nested less deeply than `fuel`. -/
def readItem : Nat → Bytes → Option (Item × Bytes)
  | 0, _ => none
  | fuel + 1, bs => do
    match ← readHead bs with
    | (0, n, rest) => some (.unsigned (.ofNat n), rest)
    | (1, n, rest) => some (.negative (.ofNat n), rest)
    | (2, n, rest) => if n ≤ rest.length then some (.bytes (rest.take n), rest.drop n) else none
    | (3, n, rest) =>
      if n ≤ rest.length ∧ asBytes (fromUtf8Lossy (rest.take n)) = rest.take n then
        some (.text (fromUtf8Lossy (rest.take n)), rest.drop n)
      else none
    | (4, n, rest) => (readMany (readItem fuel) n rest).map fun r => (.array r.1, r.2)
    | (5, n, rest) => (readMany (readPair (readItem fuel)) n rest).map fun r => (.map r.1, r.2)
    | (7, 20, rest) => some (.bool false, rest)
    | (7, 21, rest) => some (.bool true, rest)
    | (7, 22, rest) => some (.null, rest)
    | _ => none

section Items

variable {item key value : Item} {items : List Item} {entries : List (Item × Item)} {fuel : Nat}
  {rest : Bytes}

theorem encodeItems_eq (items : List Item) : encodeItems items = items.flatMap encode := by
  induction items with
  | nil => rw [encodeItems, List.flatMap_nil]
  | cons item items ih => rw [encodeItems, List.flatMap_cons, ih]

theorem encodeEntries_eq (entries : List (Item × Item)) :
    encodeEntries entries = entries.flatMap fun e => encode e.1 ++ encode e.2 := by
  induction entries with
  | nil => rw [encodeEntries, List.flatMap_nil]
  | cons e entries ih =>
    obtain ⟨key, value⟩ := e
    rw [encodeEntries, List.flatMap_cons, ih]

theorem levels_le_items (mem : item ∈ items) : levels item ≤ levelsItems items := by
  induction items with
  | nil => cases mem
  | cons first items ih =>
    rw [levelsItems]
    rcases List.mem_cons.mp mem with rfl | later
    · exact Nat.le_max_left _ _
    · exact (ih later).trans (Nat.le_max_right _ _)

theorem levelsItems_le {bound : Nat} (all : ∀ item ∈ items, levels item ≤ bound) :
    levelsItems items ≤ bound := by
  induction items with
  | nil => exact Nat.zero_le _
  | cons first items ih =>
    obtain ⟨here, others⟩ := List.forall_mem_cons.mp all
    rw [levelsItems]
    exact Nat.max_le.mpr ⟨here, ih others⟩

theorem levels_le_entries {e : Item × Item} (mem : e ∈ entries) :
    levels e.1 ≤ levelsEntries entries ∧ levels e.2 ≤ levelsEntries entries := by
  induction entries with
  | nil => cases mem
  | cons first entries ih =>
    obtain ⟨key, value⟩ := first
    rw [levelsEntries]
    rcases List.mem_cons.mp mem with rfl | later
    · exact ⟨(Nat.le_max_left _ _).trans (Nat.le_max_left _ _),
        (Nat.le_max_right _ _).trans (Nat.le_max_left _ _)⟩
    · exact ⟨(ih later).1.trans (Nat.le_max_right _ _), (ih later).2.trans (Nat.le_max_right _ _)⟩

theorem readMany_flatMap {α : Type} {read : Bytes → Option (α × Bytes)} {code : α → Bytes}
    {as : List α} (each : ∀ a ∈ as, ∀ rest, read (code a ++ rest) = some (a, rest)) (rest : Bytes) :
    readMany read as.length (as.flatMap code ++ rest) = some (as, rest) := by
  induction as with
  | nil => rfl
  | cons a as ih =>
    obtain ⟨here, others⟩ := List.forall_mem_cons.mp each
    rw [List.length_cons, readMany, List.flatMap_cons, List.append_assoc, here]
    simp [ih others]

theorem readPair_append {read : Bytes → Option (Item × Bytes)}
    (first : ∀ rest, read (encode key ++ rest) = some (key, rest))
    (second : ∀ rest, read (encode value ++ rest) = some (value, rest)) (rest : Bytes) :
    readPair read (encode key ++ encode value ++ rest) = some ((key, value), rest) := by
  rw [readPair, List.append_assoc, first]
  simp [second]

theorem readItem_succ_encode (inMemory : InMemory item) (shallow : levels item ≤ fuel) (rest : Bytes) :
    readItem (fuel + 1) (encode item ++ rest) = some (item, rest) := by
  induction inMemory generalizing fuel rest with
  | unsigned n =>
    rw [encode, readItem, readHead_head (by decide) n.toNat_lt]
    simp
  | negative n =>
    rw [encode, readItem, readHead_head (by decide) n.toNat_lt]
    simp
  | bytes short =>
    rw [encode, readItem, List.append_assoc, readHead_head (by decide) (by omega)]
    simp
  | text short =>
    rw [encode, readItem, List.append_assoc, readHead_head (by decide) (by omega)]
    simp
  | @array items short all ih =>
    rw [levels] at shallow
    obtain ⟨fuel, rfl⟩ := Nat.exists_eq_succ_of_ne_zero (Nat.ne_zero_of_lt shallow)
    have each : ∀ item ∈ items, ∀ rest,
        readItem (fuel + 1) (encode item ++ rest) = some (item, rest) := by
      intro item mem rest
      have within := levels_le_items mem
      exact ih item mem (by omega) rest
    rw [encode, readItem, List.append_assoc, readHead_head (by decide) (by omega)]
    simp [encodeItems_eq, readMany_flatMap each]
  | @map entries short keys values ihKeys ihValues =>
    rw [levels] at shallow
    obtain ⟨fuel, rfl⟩ := Nat.exists_eq_succ_of_ne_zero (Nat.ne_zero_of_lt shallow)
    have each : ∀ e ∈ entries, ∀ rest,
        readPair (readItem (fuel + 1)) ((encode e.1 ++ encode e.2) ++ rest) = some (e, rest) := by
      intro e mem rest
      obtain ⟨keyWithin, valueWithin⟩ := levels_le_entries mem
      exact readPair_append (ihKeys e mem (by omega)) (ihValues e mem (by omega)) rest
    rw [encode, readItem, List.append_assoc, readHead_head (by decide) (by omega)]
    simp [encodeEntries_eq, readMany_flatMap each]
  | bool b => cases b <;> rw [encode, readItem, readHead_head (by decide) (by decide)] <;> rfl
  | null =>
    rw [encode, readItem, readHead_head (by decide) (by decide)]
    rfl

/-- What is written of an item is read back. -/
theorem readItem_encode (inMemory : InMemory item) (shallow : levels item < fuel) (rest : Bytes) :
    readItem fuel (encode item ++ rest) = some (item, rest) := by
  obtain ⟨fuel, rfl⟩ := Nat.exists_eq_succ_of_ne_zero (Nat.ne_zero_of_lt shallow)
  exact readItem_succ_encode inMemory (Nat.le_of_lt_succ shallow) rest

end Items

/-! ### Structures -/

/-- The map of a structure, given its fields in the order of their declaration. -/
def record (fields : List (String × Item)) : Item := .map (fields.map fun f => (.text f.1, f.2))

theorem inMemory_record {fields : List (String × Item)} (short : fields.length < 2 ^ 63)
    (names : ∀ f ∈ fields, (asBytes f.1).length < 2 ^ 63) (values : ∀ f ∈ fields, InMemory f.2) :
    InMemory (record fields) := by
  apply InMemory.map
  · rwa [List.length_map]
  · exact List.forall_mem_map.mpr fun f mem => .text (names f mem)
  · exact List.forall_mem_map.mpr values

theorem levels_record_le {fields : List (String × Item)} {bound : Nat}
    (values : ∀ f ∈ fields, levels f.2 ≤ bound) : levels (record fields) ≤ bound + 1 := by
  rw [record, levels]
  apply Nat.succ_le_succ
  induction fields with
  | nil => exact Nat.zero_le _
  | cons f fields ih =>
    obtain ⟨here, others⟩ := List.forall_mem_cons.mp values
    rw [List.map_cons, levelsEntries, levels]
    exact Nat.max_le.mpr ⟨Nat.max_le.mpr ⟨Nat.zero_le _, here⟩, ih others⟩

/-- `ciborium::from_reader`, of which it is assumed that it reads back what has been written, up
to its limit of 256 levels. -/
structure Reader where
  fromReader : Bytes → Except String Item
  fromReader_encode {item : Item} (inMemory : InMemory item) (shallow : levels item ≤ 256) :
    fromReader (encode item) = .ok item

/-- A reader of items of definite length. -/
def definiteReader : Reader where
  fromReader bs :=
    match readItem 257 bs with
    | some (item, _) => .ok item
    | none => .error "Syntax(0)"
  fromReader_encode inMemory shallow := by
    have read := readItem_encode inMemory (Nat.lt_succ_of_le shallow) []
    rw [List.append_nil] at read
    rw [read]

/-- The kind of what is read is that of the head. -/
theorem readHead_major {b : UInt8} {rest more : Bytes} {major n : Nat}
    (read : readHead (b :: rest) = some (major, n, more)) : major = b.toNat / 32 := by
  simp only [readHead] at read
  split at read
  · cases read
    rfl
  · split at read
    · cases read
      rfl
    · cases read

/-- Major type 2 are the byte strings, and 3 the texts. -/
theorem kind_of_readItem {b : UInt8} {rest more : Bytes} {item : Item} {fuel : Nat}
    (read : readItem fuel (b :: rest) = some (item, more)) :
    (b.toNat / 32 = 2 → ∃ bs, item = .bytes bs) ∧ (b.toNat / 32 = 3 → ∃ s, item = .text s) := by
  cases fuel with
  | zero => cases read
  | succ fuel =>
    rw [readItem] at read
    cases first : readHead (b :: rest) with
    | none =>
      rw [first] at read
      cases read
    | some out =>
      obtain ⟨major, n, behind⟩ := out
      have kind := readHead_major first
      rw [first] at read
      constructor
      · intro two
        rw [two] at kind
        subst kind
        obtain ⟨-, same⟩ := Option.ite_none_right_eq_some.mp read
        cases same
        exact ⟨_, rfl⟩
      · intro three
        rw [three] at kind
        subst kind
        obtain ⟨-, same⟩ := Option.ite_none_right_eq_some.mp read
        cases same
        exact ⟨_, rfl⟩

theorem kind_of_definiteReader {b : UInt8} {rest : Bytes} {item : Item}
    (read : definiteReader.fromReader (b :: rest) = .ok item) :
    (b.toNat / 32 = 2 → ∃ bs, item = .bytes bs) ∧ (b.toNat / 32 = 3 → ∃ s, item = .text s) := by
  unfold definiteReader at read
  simp only at read
  split at read
  · rename_i found
    cases read
    exact kind_of_readItem found
  · cases read

end Ciborium
