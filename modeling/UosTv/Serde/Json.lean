import Mathlib.Data.List.Sort
import Mathlib.Data.String.Basic
import UosTv.Serde.JsonString

/-!
Values of JSON, as in `serde_json::Value`, and the texts that render them.

The entries of an object are kept in the order of their keys, so a value has one form
whatever the order of the keys in its text (`collect_of_perm`). A text renders a value with
any white space between its tokens and with the entries of every object in any order.
-/

namespace SerdeJson

/-- `serde_json::Number`. -/
inductive Number where
  | posInt (n : UInt64)
  | negInt (n : Int64)
  | float (bits : UInt64)
deriving DecidableEq, Repr

/-- `serde_json::Value`. The entries of an object are those of a `BTreeMap`. -/
inductive Value where
  | null
  | bool (b : Bool)
  | number (n : Number)
  | string (s : String)
  | array (items : List Value)
  | object (entries : List (String × Value))

/-! ### Entries of objects -/

/-- `BTreeMap::insert`. -/
def insert (key : String) (v : Value) : List (String × Value) → List (String × Value)
  | [] => [(key, v)]
  | e :: rest =>
    if key < e.1 then (key, v) :: e :: rest
    else if key = e.1 then (key, v) :: rest
    else e :: insert key v rest

/-- `BTreeMap::get`. -/
def get (entries : List (String × Value)) (key : String) : Option Value :=
  (entries.find? fun e => e.1 = key).map (·.2)

/-- Entries inserted one after the other. -/
def collect (entries : List (String × Value)) : List (String × Value) :=
  entries.foldl (fun m e => insert e.1 e.2 m) []

/-- The keys grow, as those of a `BTreeMap` do. -/
def Sorted (entries : List (String × Value)) : Prop := entries.Pairwise fun e e' => e.1 < e'.1

section Entries

variable {key : String} {v : Value} {m entries fields : List (String × Value)}

theorem mem_insert {e : String × Value} (mem : e ∈ insert key v m) : e = (key, v) ∨ e ∈ m := by
  induction m with
  | nil => exact .inl (List.mem_singleton.mp mem)
  | cons first rest ih =>
    rw [insert] at mem
    split_ifs at mem with before same
    · exact List.mem_cons.mp mem
    · exact (List.mem_cons.mp mem).imp_right (List.mem_cons_of_mem _)
    · rcases List.mem_cons.mp mem with rfl | later
      · exact .inr List.mem_cons_self
      · exact (ih later).imp_right (List.mem_cons_of_mem _)

theorem Sorted.insert (sorted : Sorted m) : Sorted (insert key v m) := by
  induction m with
  | nil => exact List.pairwise_singleton _ _
  | cons first rest ih =>
    obtain ⟨least, sortedRest⟩ := List.pairwise_cons.mp sorted
    rw [SerdeJson.insert]
    split_ifs with before same
    · refine List.pairwise_cons.mpr ⟨fun e mem => ?_, sorted⟩
      rcases List.mem_cons.mp mem with rfl | later
      · exact before
      · exact before.trans (least e later)
    · exact List.pairwise_cons.mpr ⟨fun e mem => same ▸ least e mem, sortedRest⟩
    · refine List.pairwise_cons.mpr ⟨fun e mem => ?_, ih sortedRest⟩
      rcases mem_insert mem with rfl | later
      · exact lt_of_le_of_ne (not_lt.mp before) (Ne.symm same)
      · exact least e later

theorem insert_perm (fresh : ∀ e ∈ m, e.1 ≠ key) : (insert key v m).Perm ((key, v) :: m) := by
  induction m with
  | nil => exact List.Perm.refl _
  | cons first rest ih =>
    obtain ⟨other, freshRest⟩ := List.forall_mem_cons.mp fresh
    rw [insert, if_neg (Ne.symm other)]
    split_ifs with before
    · exact List.Perm.refl _
    · exact ((ih freshRest).cons first).trans (List.Perm.swap _ _ _)

@[simp] theorem get_nil : get [] key = none := rfl

@[simp] theorem get_cons (e : String × Value) :
    get (e :: m) key = if e.1 = key then some e.2 else get m key := by
  unfold get
  rw [List.find?_cons]
  by_cases here : e.1 = key
  · simp [here]
  · simp [here]

theorem get_insert (other : String) :
    get (insert key v m) other = if key = other then some v else get m other := by
  induction m with
  | nil => rw [insert, get_cons]
  | cons first rest ih =>
    by_cases before : key < first.1
    · rw [insert, if_pos before, get_cons]
    · by_cases same : key = first.1
      · rw [insert, if_neg before, if_pos same, get_cons, get_cons, ← same]
        split_ifs <;> rfl
      · rw [insert, if_neg before, if_neg same, get_cons, get_cons, ih]
        split_ifs with here there
        · exact absurd (there.trans here.symm) same
        · rfl
        · rfl
        · rfl

theorem sorted_foldl (sorted : Sorted m) :
    Sorted (entries.foldl (fun m e => insert e.1 e.2 m) m) := by
  induction entries generalizing m with
  | nil => exact sorted
  | cons e entries ih => exact ih sorted.insert

theorem sorted_collect : Sorted (collect entries) := sorted_foldl List.Pairwise.nil

theorem foldl_insert_perm (distinct : (entries.map (·.1)).Nodup)
    (fresh : ∀ e ∈ entries, ∀ e' ∈ m, e'.1 ≠ e.1) :
    (entries.foldl (fun m e => insert e.1 e.2 m) m).Perm (entries ++ m) := by
  induction entries generalizing m with
  | nil => exact List.Perm.refl _
  | cons e entries ih =>
    obtain ⟨alone, distinctRest⟩ := List.nodup_cons.mp distinct
    obtain ⟨freshHere, freshRest⟩ := List.forall_mem_cons.mp fresh
    have inserted := insert_perm (v := e.2) freshHere
    refine (ih distinctRest fun e' mem e'' mem' => ?_).trans
      ((inserted.append_left entries).trans List.perm_middle)
    rcases mem_insert mem' with rfl | old
    · rintro same
      exact alone (List.mem_map.mpr ⟨e', mem, same.symm⟩)
    · exact freshRest e' mem e'' old

theorem Sorted.distinct (sorted : Sorted fields) : (fields.map (·.1)).Nodup :=
  List.pairwise_map.mpr (sorted.imp fun less => less.ne)

theorem collect_perm (distinct : (entries.map (·.1)).Nodup) : (collect entries).Perm entries := by
  have inserted := foldl_insert_perm (m := []) distinct fun _ _ _ mem => absurd mem List.not_mem_nil
  rwa [List.append_nil] at inserted

/-- The order in which distinct keys are inserted does not matter. -/
theorem collect_of_perm (sorted : Sorted fields) (perm : entries.Perm fields) :
    collect entries = fields := by
  have distinct : (entries.map (·.1)).Nodup := (perm.map _).nodup_iff.mpr sorted.distinct
  have all : (collect entries).Perm fields := (collect_perm distinct).trans perm
  refine all.eq_of_pairwise (fun e e' mem mem' less less' => ?_) sorted_collect sorted
  exact absurd (less.trans less') (lt_irrefl _)

end Entries

/-! ### Texts of a value -/

/-- White space between tokens. -/
def isSpace (c : Char) : Bool := c = ' ' ∨ c = '\n' ∨ c = '\t' ∨ c = '\r'

/-- The decimal digits of a number. -/
def digits (n : Nat) : List Char := Nat.toDigits 10 n

/-- What a piece of text renders. The items are those between the brackets of an array, the
entries those between the braces of an object, in the order of the text; an item has white
space around it. -/
inductive Part where
  | value (v : Value)
  | item (v : Value)
  | items (vs : List Value)
  | entry (key : String) (v : Value)
  | entries (es : List (String × Value))

/-- The text renders the part. -/
inductive Renders : Part → List Char → Prop
  | null : Renders (.value .null) "null".toList
  | true : Renders (.value (.bool true)) "true".toList
  | false : Renders (.value (.bool false)) "false".toList
  | posInt (n : UInt64) : Renders (.value (.number (.posInt n))) (digits n.toNat)
  | negInt (n : Int64) (negative : n.toInt < 0) :
    Renders (.value (.number (.negInt n))) ('-' :: digits n.toInt.natAbs)
  | string (s : String) : Renders (.value (.string s)) (quoted s).toList
  | array {vs : List Value} {text : List Char} (items : Renders (.items vs) text) :
    Renders (.value (.array vs)) ('[' :: (text ++ [']']))
  | object {fields es : List (String × Value)} {text : List Char} (sorted : Sorted fields)
    (perm : es.Perm fields) (entries : Renders (.entries es) text) :
    Renders (.value (.object fields)) ('{' :: (text ++ ['}']))
  | item {v : Value} {before text after : List Char} (spaces : before.all isSpace)
    (value : Renders (.value v) text) (spaces' : after.all isSpace) :
    Renders (.item v) (before ++ (text ++ after))
  | noItems {spaces : List Char} (blank : spaces.all isSpace) : Renders (.items []) spaces
  | lastItem {v : Value} {text : List Char} (item : Renders (.item v) text) :
    Renders (.items [v]) text
  | moreItems {v w : Value} {vs : List Value} {text more : List Char} (item : Renders (.item v) text)
    (rest : Renders (.items (w :: vs)) more) : Renders (.items (v :: w :: vs)) (text ++ ',' :: more)
  | entry {key : String} {v : Value} {before after text : List Char} (spaces : before.all isSpace)
    (spaces' : after.all isSpace) (item : Renders (.item v) text) :
    Renders (.entry key v) (before ++ ((quoted key).toList ++ (after ++ ':' :: text)))
  | noEntries {spaces : List Char} (blank : spaces.all isSpace) : Renders (.entries []) spaces
  | lastEntry {key : String} {v : Value} {text : List Char} (entry : Renders (.entry key v) text) :
    Renders (.entries [(key, v)]) text
  | moreEntries {key : String} {v : Value} {e : String × Value} {es : List (String × Value)}
    {text more : List Char} (entry : Renders (.entry key v) text)
    (rest : Renders (.entries (e :: es)) more) :
    Renders (.entries ((key, v) :: e :: es)) (text ++ ',' :: more)

/-! ### The text that is written -/

def printNumber : Number → List Char
  | .posInt n => digits n.toNat
  | .negInt n => '-' :: digits n.toInt.natAbs
  -- The digits of fractions are not modelled.
  | .float _ => []

mutual

/-- `serde_json::to_string`. -/
def print : Value → List Char
  | .null => "null".toList
  | .bool true => "true".toList
  | .bool false => "false".toList
  | .number n => printNumber n
  | .string s => (quoted s).toList
  | .array vs => '[' :: (printItems vs ++ [']'])
  | .object es => '{' :: (printEntries es ++ ['}'])

def printItems : List Value → List Char
  | [] => []
  | [v] => print v
  | v :: w :: vs => print v ++ ',' :: printItems (w :: vs)

def printEntries : List (String × Value) → List Char
  | [] => []
  | [(key, v)] => (quoted key).toList ++ ':' :: print v
  | (key, v) :: e :: es => (quoted key).toList ++ ':' :: print v ++ ',' :: printEntries (e :: es)

end

/-- The value has no fractions, and its objects and integers are as the library keeps them. -/
inductive Canonical : Value → Prop
  | null : Canonical .null
  | bool (b : Bool) : Canonical (.bool b)
  | posInt (n : UInt64) : Canonical (.number (.posInt n))
  | negInt (n : Int64) (negative : n.toInt < 0) : Canonical (.number (.negInt n))
  | string (s : String) : Canonical (.string s)
  | array {vs : List Value} (items : ∀ v ∈ vs, Canonical v) : Canonical (.array vs)
  | object {es : List (String × Value)} (sorted : Sorted es) (entries : ∀ e ∈ es, Canonical e.2) :
    Canonical (.object es)

theorem Renders.item_of_value {v : Value} {text : List Char} (value : Renders (.value v) text) :
    Renders (.item v) text := by
  have item : Renders (.item v) ([] ++ (text ++ [])) := .item rfl value rfl
  rwa [List.append_nil, List.nil_append] at item

theorem Renders.entry_of_value {key : String} {v : Value} {text : List Char}
    (value : Renders (.value v) text) :
    Renders (.entry key v) ((quoted key).toList ++ ':' :: text) := by
  have entry : Renders (.entry key v) ([] ++ ((quoted key).toList ++ ([] ++ ':' :: text))) :=
    .entry rfl rfl value.item_of_value
  rwa [List.nil_append, List.nil_append] at entry

theorem renders_printItems {vs : List Value} (items : ∀ v ∈ vs, Renders (.value v) (print v)) :
    Renders (.items vs) (printItems vs) := by
  induction vs with
  | nil =>
    rw [printItems]
    exact .noItems rfl
  | cons v vs ih =>
    obtain ⟨first, others⟩ := List.forall_mem_cons.mp items
    cases vs with
    | nil =>
      rw [printItems]
      exact .lastItem first.item_of_value
    | cons w vs =>
      rw [printItems]
      exact .moreItems first.item_of_value (ih others)

theorem renders_printEntries {es : List (String × Value)}
    (entries : ∀ e ∈ es, Renders (.value e.2) (print e.2)) :
    Renders (.entries es) (printEntries es) := by
  induction es with
  | nil =>
    rw [printEntries]
    exact .noEntries rfl
  | cons e es ih =>
    obtain ⟨key, v⟩ := e
    obtain ⟨first, others⟩ := List.forall_mem_cons.mp entries
    have entry : Renders (.entry key v) _ := first.entry_of_value
    cases es with
    | nil =>
      rw [printEntries]
      exact .lastEntry entry
    | cons e' es =>
      rw [printEntries]
      exact .moreEntries entry (ih others)

/-- What is written renders the value. -/
theorem renders_print {v : Value} (canonical : Canonical v) : Renders (.value v) (print v) := by
  induction canonical with
  | null => exact .null
  | bool b =>
    cases b with
    | true => exact .true
    | false => exact .false
  | posInt n => exact .posInt n
  | negInt n negative => exact .negInt n negative
  | string s => exact .string s
  | array items ih => exact .array (renders_printItems ih)
  | object sorted entries ih => exact .object sorted (List.Perm.refl _) (renders_printEntries ih)

end SerdeJson
