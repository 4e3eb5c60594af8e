import UosTv.Serde.Json

/-!
Types with `Serialize` and `Deserialize`, by way of `serde_json::Value`.

An instance carries the proof that what is written is read back. A structure is written as an
object with an entry for each field; it is read from an object, where fields it does not know
are skipped, or from an array with one item for each field.
-/

namespace SerdeJson

/-- How a type is written as a value and read from one. -/
class Serde (α : Type) where
  toValue : α → Value
  fromValue : Value → Option α
  fromValue_toValue (a : α) : fromValue (toValue a) = some a

attribute [simp] Serde.fromValue_toValue

open Serde

instance : Serde Value where
  toValue v := v
  fromValue v := some v
  fromValue_toValue _ := rfl

instance : Serde Bool where
  toValue b := .bool b
  fromValue
    | .bool b => some b
    | _ => none
  fromValue_toValue _ := rfl

instance : Serde String where
  toValue s := .string s
  fromValue
    | .string s => some s
    | _ => none
  fromValue_toValue _ := rfl

instance : Serde UInt64 where
  toValue n := .number (.posInt n)
  fromValue
    | .number (.posInt n) => some n
    | _ => none
  fromValue_toValue _ := rfl

instance : Serde UInt32 where
  toValue n := .number (.posInt n.toUInt64)
  fromValue
    | .number (.posInt n) => if n.toNat < 2 ^ 32 then some n.toUInt32 else none
    | _ => none
  fromValue_toValue n := by
    have small : n.toUInt64.toNat < 2 ^ 32 := UInt32.toNat_toUInt64 n ▸ n.toNat_lt
    exact (if_pos small).trans (congrArg some (UInt32.toUInt32_toUInt64 n))

instance : Serde (Option String) where
  toValue
    | none => .null
    | some s => .string s
  fromValue
    | .null => some none
    | .string s => some (some s)
    | _ => none
  fromValue_toValue s := by cases s <;> rfl

section Lists

variable {α : Type} [Serde α]

instance : Serde (List α) where
  toValue as := .array (as.map toValue)
  fromValue
    | .array vs => vs.mapM fromValue
    | _ => none
  fromValue_toValue as := by
    induction as with
    | nil => rfl
    | cons a as ih => simp_all

/-- A required field. -/
def field (entries : List (String × Value)) (key : String) : Option α :=
  (get entries key).bind fromValue

/-- A field with `#[serde(default)]`. -/
def fieldOr (default : α) (entries : List (String × Value)) (key : String) : Option α :=
  match get entries key with
  | none => some default
  | some v => fromValue v

end Lists

/-! ### Structures -/

/-- The object of a structure, given its fields in the order of their declaration. -/
def record (fields : List (String × Value)) : Value := .object (collect fields)

variable {key : String} {m fields : List (String × Value)}

theorem get_foldl_insert (distinct : (fields.map (·.1)).Nodup) :
    get (fields.foldl (fun m e => insert e.1 e.2 m) m) key = (get fields key).or (get m key) := by
  induction fields generalizing m with
  | nil => rfl
  | cons e fields ih =>
    obtain ⟨alone, distinctRest⟩ := List.nodup_cons.mp distinct
    rw [List.foldl_cons, ih distinctRest, get_insert, get_cons]
    by_cases here : e.1 = key
    · have others : get fields key = none := by
        rw [get, Option.map_eq_none_iff, List.find?_eq_none]
        intro e' mem same
        exact alone (List.mem_map.mpr ⟨e', mem, (of_decide_eq_true same).trans here.symm⟩)
      simp [here, others]
    · simp [here]

/-- A field of a structure is the one that was written. -/
theorem get_collect (distinct : (fields.map (·.1)).Nodup) : get (collect fields) key = get fields key := by
  rw [collect, get_foldl_insert distinct, get_nil, Option.or_none]

/-- Structures that are written alike have the same fields. -/
theorem get_eq_of_record_eq {fields' : List (String × Value)} (key : String)
    (same : record fields = record fields') (distinct : (fields.map (·.1)).Nodup)
    (distinct' : (fields'.map (·.1)).Nodup) : get fields key = get fields' key := by
  rw [← get_collect distinct, Value.object.inj same, get_collect distinct']

/-- A structure is rendered with its fields in any order, such as that of their declaration. -/
theorem Renders.record {es : List (String × Value)} {text : List Char}
    (distinct : (fields.map (·.1)).Nodup) (perm : es.Perm fields)
    (entries : Renders (.entries es) text) :
    Renders (.value (record fields)) ('{' :: (text ++ ['}'])) :=
  .object sorted_collect (perm.trans (collect_perm distinct).symm) entries

theorem canonical_record (entries : ∀ e ∈ fields, Canonical e.2)
    (distinct : (fields.map (·.1)).Nodup) : Canonical (record fields) :=
  .object sorted_collect fun e mem => entries e ((collect_perm distinct).mem_iff.mp mem)

theorem canonical_list {α : Type} [Serde α] {as : List α}
    (items : ∀ a ∈ as, Canonical (toValue a)) : Canonical (toValue as) :=
  .array (List.forall_mem_map.mpr items)

theorem canonical_optionString (s : Option String) : Canonical (toValue s) := by
  cases s with
  | none => exact .null
  | some s => exact .string s

end SerdeJson
