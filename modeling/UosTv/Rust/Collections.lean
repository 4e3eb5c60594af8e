import Mathlib.Data.List.AList
import Mathlib.Data.List.Induction

/-!
Maps and sets of the Rust standard library, as far as a program can observe them.

A `HashMap` is an association list without repeated keys: the list order stands for
the unspecified iteration order, and no lemma here depends on it. `HashSet` is a list
without repetitions. Both carry that fact as a field, so a table with two values for
one key cannot be built. The operations are those of `std::collections` (and of
`dashmap`, whose accesses are atomic here), one lookup lemma for each.
-/

namespace Rust

/-- The order in which a hash container is gone through: some order of its elements. -/
structure Iter (α : Type*) where
  run : List α → List α
  perm : ∀ l, (run l).Perm l

/-- The order in which the elements are listed. -/
def Iter.listed {α : Type*} : Iter α := ⟨id, fun l => .refl l⟩

section Search

variable {α β : Type*} {p : α → Bool} {d : β} {f : α → β} {l l' : List α}

/-- A search gives the same answer in another order when all elements that it may find give it. -/
theorem elim_find?_of_perm (perm : l'.Perm l)
    (agree : ∀ a ∈ l, ∀ b ∈ l, p a → p b → f a = f b) :
    (l'.find? p).elim d f = (l.find? p).elim d f := by
  cases found : l.find? p with
  | none =>
    have absent : l'.find? p = none :=
      List.find?_eq_none.mpr fun a mem => List.find?_eq_none.mp found a (perm.mem_iff.mp mem)
    rw [absent]
  | some a =>
    have mem := List.mem_of_find?_eq_some found
    have holds := List.find?_some found
    cases found' : l'.find? p with
    | none => exact absurd holds (List.find?_eq_none.mp found' a (perm.mem_iff.mpr mem))
    | some b =>
      have mem' := perm.mem_iff.mp (List.mem_of_find?_eq_some found')
      exact agree b mem' a mem (List.find?_some found') holds

/-- Some order puts an element first, so that the search finds it. -/
theorem exists_perm_find? {a : α} (mem : a ∈ l) (holds : p a) :
    ∃ l' : List α, l'.Perm l ∧ l'.find? p = some a := by
  obtain ⟨front, back, rfl⟩ := List.append_of_mem mem
  exact ⟨a :: (front ++ back), List.perm_middle.symm, List.find?_cons_of_pos holds⟩

end Search

/-- `HashMap<K, V>`: entries in iteration order, each key once. -/
abbrev HashMap (κ : Type*) (ν : Type*) := AList fun _ : κ => ν

/-- `HashSet<T>`: members in iteration order, each once. -/
structure HashSet (α : Type*) where
  elems : List α
  nodup : elems.Nodup

namespace HashSet

variable {α : Type*} [DecidableEq α]

/-- `HashSet::new()`, which is also `Default::default()`. -/
def new : HashSet α := ⟨[], List.nodup_nil⟩

def insert (s : HashSet α) (a : α) : HashSet α := ⟨s.elems.insert a, s.nodup.insert⟩

def remove (s : HashSet α) (a : α) : HashSet α := ⟨s.elems.erase a, s.nodup.erase a⟩

/-- `iter().collect()`. -/
def collect (as : List α) : HashSet α := as.foldl insert new

instance : Membership α (HashSet α) := ⟨fun s a => a ∈ s.elems⟩

instance (a : α) (s : HashSet α) : Decidable (a ∈ s) :=
  inferInstanceAs (Decidable (a ∈ s.elems))

omit [DecidableEq α] in
@[simp] theorem mem_elems {a : α} {s : HashSet α} : a ∈ s.elems ↔ a ∈ s := Iff.rfl

omit [DecidableEq α] in
@[simp] theorem not_mem_new {a : α} : ¬ a ∈ (new : HashSet α) := List.not_mem_nil

@[simp] theorem mem_insert {a b : α} {s : HashSet α} : a ∈ s.insert b ↔ a = b ∨ a ∈ s :=
  List.mem_insert_iff

@[simp] theorem mem_remove {a b : α} {s : HashSet α} : a ∈ s.remove b ↔ a ≠ b ∧ a ∈ s :=
  s.nodup.mem_erase_iff

theorem mem_foldl_insert {a : α} {as : List α} {s : HashSet α} :
    a ∈ as.foldl insert s ↔ a ∈ as ∨ a ∈ s := by
  induction as generalizing s with
  | nil => simp
  | cons b as ih => rw [List.foldl_cons, ih, mem_insert, List.mem_cons, or_left_comm, or_assoc]

@[simp] theorem mem_collect {a : α} {as : List α} : a ∈ collect as ↔ a ∈ as := by
  rw [collect, mem_foldl_insert]
  simp

/-- `HashSet::difference`, collected. -/
def difference (s t : HashSet α) : HashSet α := ⟨s.elems.filter (· ∉ t), s.nodup.filter _⟩

@[simp] theorem mem_difference {a : α} {s t : HashSet α} : a ∈ s.difference t ↔ a ∈ s ∧ a ∉ t := by
  change a ∈ s.elems.filter (· ∉ t) ↔ _
  rw [List.mem_filter, decide_eq_true_iff, mem_elems]

/-- A loop over the members in which only `a` contributes. -/
theorem flatMap_elems {β : Type*} (s : HashSet α) {f : α → List β} {a : α}
    (others : ∀ b, b ≠ a → f b = []) : s.elems.flatMap f = if a ∈ s then f a else [] := by
  obtain ⟨elems, nodup⟩ := s
  change elems.flatMap f = if a ∈ elems then f a else []
  induction elems with
  | nil => rfl
  | cons b elems ih =>
    obtain ⟨new, nodup⟩ := List.nodup_cons.mp nodup
    rw [List.flatMap_cons, ih nodup]
    by_cases same : b = a
    · subst same
      simp [new]
    · simp [others b same, Ne.symm same]

end HashSet

namespace HashMap

variable {κ ν : Type*} [DecidableEq κ]

/-- `get`: the value under a key. -/
def get (m : HashMap κ ν) (k : κ) : Option ν := m.lookup k

/-- `insert`: replaces the value of a present key. -/
def insert (m : HashMap κ ν) (k : κ) (v : ν) : HashMap κ ν := AList.insert k v m

def remove (m : HashMap κ ν) (k : κ) : HashMap κ ν := m.erase k

/-- `len`: the number of entries. -/
def len (m : HashMap κ ν) : Nat := m.entries.length

/-- `retain`: keeps the entries that satisfy `p`. -/
def retain (m : HashMap κ ν) (p : κ → ν → Bool) : HashMap κ ν :=
  ⟨m.entries.filter fun e => p e.1 e.2, m.nodupKeys.sublist List.filter_sublist⟩

/-- A loop over `values_mut` that updates every value. -/
def mapValues (m : HashMap κ ν) (f : ν → ν) : HashMap κ ν :=
  ⟨m.entries.map fun e => ⟨e.1, f e.2⟩, m.nodupKeys.map₂ fun _ => f⟩

/-- `if let Some(v) = m.get_mut(k)`, updating the value in place. -/
def modify (m : HashMap κ ν) (k : κ) (f : ν → ν) : HashMap κ ν :=
  match m.get k with
  | none => m
  | some v => m.insert k (f v)

/-- `m.entry(k).or_default()`, updating the value in place. -/
def upsert (m : HashMap κ ν) (k : κ) (default : ν) (f : ν → ν) : HashMap κ ν :=
  m.insert k (f ((m.get k).getD default))

/-- `m.entry(k).or_insert(v)`. -/
def orInsert (m : HashMap κ ν) (k : κ) (v : ν) : HashMap κ ν :=
  match m.get k with
  | none => m.insert k v
  | some _ => m

/-- `insert`, where the order matters: the value of a present key is replaced where it stands. -/
def insertInPlace (m : HashMap κ ν) (k : κ) (v : ν) : HashMap κ ν :=
  match m.get k with
  | none => m.insert k v
  | some _ => ⟨m.entries.map fun e => ⟨e.1, if e.1 = k then v else e.2⟩,
      m.nodupKeys.map₂ fun k' v' => if k' = k then v else v'⟩

/-- `collect()` into a map: a later entry replaces an earlier one under its key. -/
def collect (entries : List (κ × ν)) : HashMap κ ν :=
  entries.foldl (fun m e => m.insert e.1 e.2) ∅

@[simp] theorem get_empty (k : κ) : get (∅ : HashMap κ ν) k = none := rfl

theorem get_insert (m : HashMap κ ν) (k k' : κ) (v : ν) :
    (m.insert k v).get k' = if k' = k then some v else m.get k' := by
  unfold get insert
  split
  · rename_i same
    rw [same, AList.lookup_insert]
  · rename_i other
    exact AList.lookup_insert_ne other

theorem get_remove (m : HashMap κ ν) (k k' : κ) :
    (m.remove k).get k' = if k' = k then none else m.get k' := by
  unfold get remove
  split
  · rename_i same
    rw [same, AList.lookup_erase]
  · rename_i other
    exact AList.lookup_erase_ne other

theorem mem_entries {m : HashMap κ ν} {k : κ} {v : ν} : ⟨k, v⟩ ∈ m.entries ↔ m.get k = some v :=
  AList.mem_lookup_iff.symm

/-- A loop over the entries in which only one key contributes. -/
theorem flatMap_entries {β : Type*} {m : HashMap κ ν} {f : (Σ _ : κ, ν) → List β} {k : κ} {v : ν}
    (found : m.get k = some v) (others : ∀ e ∈ m.entries, e.1 ≠ k → f e = []) :
    m.entries.flatMap f = f ⟨k, v⟩ := by
  have mem : ⟨k, v⟩ ∈ m.entries := mem_entries.mpr found
  have nodup := m.nodupKeys
  generalize m.entries = entries at mem others nodup
  induction entries with
  | nil => exact absurd mem List.not_mem_nil
  | cons e entries ih =>
    obtain ⟨new, nodup⟩ := List.nodupKeys_cons.mp nodup
    obtain ⟨first, later⟩ := List.forall_mem_cons.mp others
    have apart : ∀ e' ∈ entries, e'.1 ≠ e.1 := by
      intro e' mem same
      rw [← same] at new
      exact new (List.mem_keys_of_mem mem)
    rw [List.flatMap_cons]
    rcases List.mem_cons.mp mem with rfl | mem
    · have rest := List.flatMap_eq_nil_iff.mpr fun e' mem => later e' mem (apart e' mem)
      rw [rest, List.append_nil]
    · rw [first (apart _ mem).symm, List.nil_append, ih mem later nodup]

theorem get_retain (m : HashMap κ ν) (p : κ → ν → Bool) (k : κ) :
    (m.retain p).get k = (m.get k).filter (p k) := by
  refine Option.ext fun v => ?_
  rw [← mem_entries, Option.filter_eq_some_iff]
  simp only [retain, List.mem_filter, mem_entries]

theorem get_mapValues (m : HashMap κ ν) (f : ν → ν) (k : κ) :
    (m.mapValues f).get k = (m.get k).map f :=
  List.dlookup_map₂ (f := fun _ => f) k

theorem get_modify (m : HashMap κ ν) (k k' : κ) (f : ν → ν) :
    (m.modify k f).get k' = if k' = k then (m.get k).map f else m.get k' := by
  unfold modify
  cases known : m.get k with
  | none => by_cases same : k' = k <;> simp [same, known]
  | some v => simp [get_insert]

theorem get_upsert (m : HashMap κ ν) (k k' : κ) (d : ν) (f : ν → ν) :
    (m.upsert k d f).get k' = if k' = k then some (f ((m.get k).getD d)) else m.get k' := by
  rw [upsert, get_insert]

theorem get_insertInPlace (m : HashMap κ ν) (k k' : κ) (v : ν) :
    (m.insertInPlace k v).get k' = if k' = k then some v else m.get k' := by
  unfold insertInPlace
  cases known : m.get k with
  | none => exact get_insert m k k' v
  | some old =>
    have mapped := List.dlookup_map₂ (l := m.entries)
      (f := fun k' v' => if k' = k then v else v') k'
    refine mapped.trans ?_
    by_cases same : k' = k
    · subst same
      change (m.get k').map _ = _
      simp [known]
    · change (m.get k').map _ = _
      simp [same]

theorem get_orInsert (m : HashMap κ ν) (k k' : κ) (v : ν) :
    (m.orInsert k v).get k' = if k' = k then some ((m.get k).getD v) else m.get k' := by
  unfold orInsert
  by_cases same : k' = k
  · subst same
    cases known : m.get k' with
    | none => simp [get_insert]
    | some v' => simp [known]
  · cases m.get k with
    | none => simp [get_insert, same]
    | some v' => simp [same]

/-- Maps with the same values under their keys have the same entries, in some order. -/
theorem entries_perm {m m' : HashMap κ ν} (same : ∀ k, m.get k = m'.get k) :
    m.entries.Perm m'.entries := by
  apply List.lookup_ext m.nodupKeys m'.nodupKeys
  intro k v
  exact iff_of_eq (congrArg (v ∈ ·) (same k))

/-- A search over the entries gives the same answer for every order iff all entries that it may find
give the same. -/
theorem elim_find?_iff {β : Type*} {m : HashMap κ ν} {p : (Σ _ : κ, ν) → Bool} {d : β}
    {f : (Σ _ : κ, ν) → β} :
    (∀ m' : HashMap κ ν, (∀ k, m'.get k = m.get k) →
        (m'.entries.find? p).elim d f = (m.entries.find? p).elim d f) ↔
      ∀ e ∈ m.entries, ∀ e' ∈ m.entries, p e → p e' → f e = f e' := by
  constructor
  · intro same
    have first : ∀ e ∈ m.entries, p e → f e = (m.entries.find? p).elim d f := by
      intro e mem holds
      obtain ⟨entries, perm, found⟩ := exists_perm_find? mem holds
      let m' : HashMap κ ν := ⟨entries, (List.perm_nodupKeys perm).mpr m.nodupKeys⟩
      have answer := same m' fun k => AList.perm_lookup perm
      change (entries.find? p).elim d f = _ at answer
      rw [← answer, found, Option.elim_some]
    intro e mem e' mem' holds holds'
    rw [first e mem holds, first e' mem' holds']
  · intro agree m' same
    exact elim_find?_of_perm (entries_perm same) agree

omit [DecidableEq κ] in
/-- `len` counts keys. -/
theorem len_eq_keys (m : HashMap κ ν) : m.len = m.keys.length := (List.length_map _).symm

theorem get_eq_none_iff {m : HashMap κ ν} {k : κ} : m.get k = none ↔ k ∉ m.keys :=
  AList.lookup_eq_none

theorem mem_keys_upsert {m : HashMap κ ν} {k k' : κ} {d : ν} {f : ν → ν} :
    k' ∈ (m.upsert k d f).keys ↔ k' = k ∨ k' ∈ m.keys := by
  rw [← not_iff_not, ← get_eq_none_iff, get_upsert, not_or, ← get_eq_none_iff]
  by_cases same : k' = k
  · simp [same]
  · simp [same]

theorem mem_keys_remove {m : HashMap κ ν} {k k' : κ} :
    k' ∈ (m.remove k).keys ↔ k' ≠ k ∧ k' ∈ m.keys := by
  rw [← not_iff_not, ← get_eq_none_iff, get_remove, not_and, ← get_eq_none_iff]
  by_cases same : k' = k
  · simp [same]
  · simp [same]

/-- The entries of a collected map are those given, when no key is given twice. -/
theorem get_collect {entries : List (κ × ν)} (nodup : (entries.map Prod.fst).Nodup) {k : κ} {v : ν} :
    (collect entries).get k = some v ↔ (k, v) ∈ entries := by
  unfold collect
  induction entries using List.reverseRecOn with
  | nil => simp
  | append_singleton entries e ih =>
    obtain ⟨k', v'⟩ := e
    rw [List.map_append, List.nodup_append] at nodup
    obtain ⟨nodup, -, apart⟩ := nodup
    rw [List.foldl_append, List.foldl_cons, List.foldl_nil, get_insert, List.mem_append,
      List.mem_singleton, Prod.mk.injEq]
    by_cases same : k = k'
    · subst same
      have new : (k, v) ∉ entries := by
        intro mem
        exact apart k (List.mem_map_of_mem mem) k (List.mem_singleton.mpr rfl) rfl
      simp [new, eq_comm]
    · simp [same, ih nodup]

theorem mem_keys {m : HashMap κ ν} {k : κ} : k ∈ m.keys ↔ ∃ v, m.get k = some v := by
  rw [← Option.ne_none_iff_exists', ne_eq, get_eq_none_iff, not_not]

/-- A new key adds one entry. -/
theorem len_insert_of_get_eq_none {m : HashMap κ ν} {k : κ} {v : ν} (absent : m.get k = none) :
    (m.insert k v).len = m.len + 1 := by
  rw [len_eq_keys, len_eq_keys, insert, AList.keys_insert, List.length_cons,
    List.erase_of_not_mem (get_eq_none_iff.mp absent)]

/-- Removing a present key removes one entry. -/
theorem len_remove_of_get_eq_some {m : HashMap κ ν} {k : κ} {v : ν} (present : m.get k = some v) :
    (m.remove k).len + 1 = m.len := by
  have mem : k ∈ m.keys := by
    by_contra absent
    rw [get_eq_none_iff.mpr absent] at present
    cases present
  rw [len_eq_keys, len_eq_keys, remove, AList.keys_erase]
  exact List.length_erase_add_one mem

end HashMap

end Rust
