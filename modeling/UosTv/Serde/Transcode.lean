import UosTv.Serde.Ciborium
import UosTv.Serde.JsonBytes

/-!
JSON values as CBOR items, and back.

`toItem` is what `ciborium` writes of a `serde_json::Value`, `toValue` what `serde_json::to_value`
makes of a `ciborium::value::Value`. A value comes back (`toValue_toItem`); byte strings and
integers below those of 64 bits have no counterpart of their own.
-/

namespace SerdeJson

open Ciborium Rust

mutual

/-- A `serde_json::Value`, as `ciborium` serializes it. Fractions are not modelled. -/
def toItem : Value → Item
  | .null => .null
  | .bool b => .bool b
  | .number (.posInt n) => .unsigned n
  | .number (.negInt n) => .negative (.ofNat (-1 - n.toInt).toNat)
  | .number (.float _) => .null
  | .string s => .text s
  | .array vs => .array (toItems vs)
  | .object es => .map (toEntries es)

def toItems : List Value → List Item
  | [] => []
  | v :: vs => toItem v :: toItems vs

def toEntries : List (String × Value) → List (Item × Item)
  | [] => []
  | (key, v) :: es => (.text key, toItem v) :: toEntries es

end

/-- The integer `-1 - n`, if it is one of `i64`. -/
def negative (n : UInt64) : Option Int :=
  if n.toNat < 2 ^ 63 then some (-1 - n.toNat) else none

/-- A key of a map as a key of an object. -/
def toKey : Item → Option String
  | .text s => some s
  | .unsigned n => some (toString n)
  | .negative n => (negative n).map toString
  | .bool b => some (toString b)
  | _ => none

mutual

/-- `serde_json::to_value`. -/
def toValue : Item → Option Value
  | .unsigned n => some (.number (.posInt n))
  | .negative n => (negative n).map fun n => .number (.negInt (.ofInt n))
  | .bytes bs => some (.array (bs.map fun b => .number (.posInt b.toUInt64)))
  | .text s => some (.string s)
  | .array items => (toValues items).map .array
  | .map entries => (toFields entries).map fun es => .object (collect es)
  | .bool b => some (.bool b)
  | .null => some .null

def toValues : List Item → Option (List Value)
  | [] => some []
  | item :: items => do
    let v ← toValue item
    let vs ← toValues items
    some (v :: vs)

def toFields : List (Item × Item) → Option (List (String × Value))
  | [] => some []
  | (key, item) :: entries => do
    let key ← toKey key
    let v ← toValue item
    let es ← toFields entries
    some ((key, v) :: es)

end

/-! ### There and back -/

section Back

variable {v : Value} {vs : List Value} {es : List (String × Value)}

theorem toValues_toItems (each : ∀ v ∈ vs, toValue (toItem v) = some v) :
    toValues (toItems vs) = some vs := by
  induction vs with
  | nil => rw [toItems, toValues]
  | cons v vs ih =>
    obtain ⟨here, others⟩ := List.forall_mem_cons.mp each
    rw [toItems, toValues, here, ih others]
    rfl

theorem toFields_toEntries (each : ∀ e ∈ es, toValue (toItem e.2) = some e.2) :
    toFields (toEntries es) = some es := by
  induction es with
  | nil => rw [toEntries, toFields]
  | cons e es ih =>
    obtain ⟨key, v⟩ := e
    obtain ⟨here, others⟩ := List.forall_mem_cons.mp each
    rw [toEntries, toFields, here, ih others]
    rfl

/-- The number that stands for a negative integer. -/
theorem toNat_negative {n : Int64} (negative : n.toInt < 0) :
    (UInt64.ofNat (-1 - n.toInt).toNat).toNat = (-1 - n.toInt).toNat ∧
      (-1 - n.toInt).toNat < 2 ^ 63 := by
  have least := n.le_toInt
  have bound : (-1 - n.toInt).toNat < 2 ^ 63 := by omega
  exact ⟨UInt64.toNat_ofNat_of_lt' (bound.trans (by decide)), bound⟩

/-- A value that is written as CBOR comes back. -/
theorem toValue_toItem (canonical : Canonical v) : toValue (toItem v) = some v := by
  induction canonical with
  | null => rfl
  | bool b => rfl
  | posInt n => rfl
  | negInt n below =>
    obtain ⟨number, bound⟩ := toNat_negative below
    have value : -1 - ((-1 - n.toInt).toNat : Int) = n.toInt := by omega
    rw [toItem, toValue, negative, number, if_pos bound, value]
    simp
  | string s => rfl
  | array items ih => rw [toItem, toValue, toValues_toItems ih, Option.map_some]
  | object sorted entries ih =>
    rw [toItem, toValue, toFields_toEntries ih, Option.map_some,
      collect_of_perm sorted (List.Perm.refl _)]

theorem levels_toItem (canonical : Canonical v) : levels (toItem v) = depth v := by
  induction canonical with
  | null => rfl
  | bool b => rfl
  | posInt n => rfl
  | negInt n below => rfl
  | string s => rfl
  | @array vs items ih =>
    have same : levelsItems (toItems vs) = depthItems vs := by
      clear items
      induction vs with
      | nil => rfl
      | cons v vs rest =>
        obtain ⟨here, others⟩ := List.forall_mem_cons.mp ih
        rw [toItems, levelsItems, depthItems, here, rest others]
    rw [toItem, levels, depth, same]
  | @object es sorted entries ih =>
    have same : levelsEntries (toEntries es) = depthEntries es := by
      clear entries sorted
      induction es with
      | nil => rfl
      | cons e es rest =>
        obtain ⟨key, v⟩ := e
        obtain ⟨here, others⟩ := List.forall_mem_cons.mp ih
        rw [toEntries, levelsEntries, depthEntries, levels, here, rest others, Nat.zero_max]
    rw [toItem, levels, depth, same]

end Back

end SerdeJson
