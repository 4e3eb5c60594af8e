import Mathlib.Data.List.AList

/-!
`Map` of JavaScript: entries in the order in which their keys were first set.
-/

namespace Js

/-- A `Map`. -/
abbrev Map (κ ν : Type*) := AList fun _ : κ => ν

namespace Map

variable {κ ν : Type*} [DecidableEq κ] {m : Map κ ν} {k k' : κ} {v : ν}

/-- `get`: the value under a key, or `undefined`. -/
def get (m : Map κ ν) (k : κ) : Option ν := m.lookup k

/-- `set`: the value of a present key is replaced in its place, a new key comes last. -/
def set (m : Map κ ν) (k : κ) (v : ν) : Map κ ν :=
  if old : k ∈ m then m.replace k v
  else
    ⟨m.entries ++ [⟨k, v⟩], by
      rw [List.NodupKeys, List.keys_append, List.nodup_append]
      refine ⟨m.nodupKeys, List.nodup_singleton k, fun a mem b last same => old ?_⟩
      obtain rfl : a = k := same.trans (List.mem_singleton.mp last)
      exact mem⟩

/-- `delete`. -/
def delete (m : Map κ ν) (k : κ) : Map κ ν := m.erase k

theorem mem_set : k' ∈ m.set k v ↔ k' = k ∨ k' ∈ m := by
  unfold set
  split_ifs with old
  · rw [AList.mem_replace]
    refine (or_iff_right_of_imp ?_).symm
    rintro rfl
    exact old
  · rw [AList.mem_keys, AList.keys, List.keys_append, List.mem_append]
    exact or_comm.trans (or_congr_left List.mem_singleton)

theorem mem_delete : k' ∈ m.delete k ↔ k' ≠ k ∧ k' ∈ m := AList.mem_erase

theorem mem_entries : ⟨k, v⟩ ∈ m.entries ↔ m.get k = some v := AList.mem_lookup_iff.symm

end Map

end Js
