import UosTv.Monitord.CycleCheck

/-!
`topological_sort` returns every service once, each after all its dependencies
(`topologicalSort_spec`).

`Sorting.Inv` is the invariant of Kahn's algorithm: the in-degree of a service is the
number of its dependencies that are not in the result, and the services with in-degree 0
are those in the result or in the queue. While the dependents of a service are released
one by one, those still to come (`rest`) are counted one too high. The loop ends with the
queue empty; that the result is then complete rests on the order that the check for cycles
has certified: its first service outside the result would have in-degree 0.
-/

namespace Monitord

open DependencyOrder Rust

namespace DependencyGraph

variable {orders : Orders} {services : List ServiceManifest} {g : DependencyGraph}
  {s : Sorting} {rest : List String} {n name : String}

/-- The dependencies of a service, each once. -/
def needs (g : DependencyGraph) (n : String) : List String :=
  match g.dependencies.get n with
  | none => []
  | some depSet => depSet.elems

/-- How many dependencies of a service are not in the result. -/
def missing (g : DependencyGraph) (s : Sorting) (n : String) : Nat :=
  (g.needs n).countP fun d => d ∉ names s.result

/-- The in-degrees of the services in `rest` have still to be lowered. -/
structure Sorting.Inv (services : List ServiceManifest) (g : DependencyGraph) (rest : List String)
    (s : Sorting) : Prop where
  degree : ∀ n ∈ names services,
    s.inDegree.get n = some (g.missing s n + if n ∈ rest then 1 else 0)
  reached : ∀ n ∈ names services,
    n ∈ names s.result ∨ n ∈ s.queue ↔ g.missing s n = 0 ∧ n ∉ rest
  nodup : (names s.result ++ s.queue).Nodup
  sorted : ∀ svc ∈ s.result, svc ∈ services
  queued : ∀ n ∈ s.queue, n ∈ names services
  ordered : Ordered (Declares services) (names s.result)

theorem length_needs : (g.needs n).length = g.degree n := by
  unfold needs degree
  cases g.dependencies.get n with
  | none => rfl
  | some set => rfl

theorem nodup_needs : (g.needs n).Nodup := by
  unfold needs
  cases g.dependencies.get n with
  | none => exact List.nodup_nil
  | some set => exact set.nodup

theorem nodup_dependentList : (dependentList orders g name).Nodup := by
  unfold dependentList
  cases g.dependents.get name with
  | none => exact List.nodup_nil
  | some set => exact ((orders.dependents name).perm set.elems).nodup_iff.mpr set.nodup

section Tables

variable (tables : g.Tables services)
include tables

theorem Tables.mem_needs {d : String} : d ∈ g.needs n ↔ Declares services n d := by
  rw [← tables.deps, needs, HasEdge]
  cases present : g.dependencies.get n with
  | none => simp
  | some set => simp

theorem Tables.mem_dependentList : n ∈ dependentList orders g name ↔ Declares services n name := by
  rw [← tables.dependents, dependentList, HasEdge]
  cases present : g.dependents.get name with
  | none => simp
  | some set => simp [((orders.dependents name).perm set.elems).mem_iff]

/-- A service that misses no dependency has them all in the result. -/
theorem needs_of_missing_eq_zero (none_missing : g.missing s n = 0) {d : String}
    (declares : Declares services n d) : d ∈ names s.result := by
  have all := List.countP_eq_zero.mp none_missing d (tables.mem_needs.mpr declares)
  simpa using all

end Tables

/-- One more element of a set counted out. -/
theorem countP_notMem_concat {l result : List String} (nodup : l.Nodup) (new : name ∉ result) :
    l.countP (fun d => d ∉ result) =
      l.countP (fun d => d ∉ result ++ [name]) + if name ∈ l then 1 else 0 := by
  induction l with
  | nil => rfl
  | cons d l ih =>
    obtain ⟨fresh, nodup⟩ := List.nodup_cons.mp nodup
    rw [List.countP_cons, List.countP_cons, ih nodup]
    by_cases same : d = name
    · subst same
      simp [new, fresh]
    · simp [same, Ne.symm same]
      omega

theorem names_concat (result : List ServiceManifest) (svc : ServiceManifest) :
    names (result ++ [svc]) = names result ++ [svc.name] := by
  simp [names]

/-! ### The steps -/

/-- A service is taken from the queue: it misses nothing and joins the result. -/
theorem Sorting.Inv.pop (orders : Orders) (tables : g.Tables services) (inv : s.Inv services g [])
    {queue : List String} {svc : ServiceManifest} (next : s.queue = name :: queue)
    (found : g.services.get name = some svc) :
    Sorting.Inv services g (dependentList orders g name)
      { s with result := s.result ++ [svc], queue } := by
  obtain ⟨mem, rfl⟩ := (tables.found name svc).mp found
  have known := inv.queued svc.name (by simp [next])
  have nodup := inv.nodup
  rw [next] at nodup
  have new : svc.name ∉ names s.result := fun old =>
    (List.nodup_append.mp nodup).2.2 _ old _ List.mem_cons_self rfl
  have lowered : ∀ n, g.missing s n =
      g.missing { s with result := s.result ++ [svc], queue } n +
        if n ∈ dependentList orders g svc.name then 1 else 0 := by
    intro n
    simp only [missing, names_concat, tables.mem_dependentList, ← tables.mem_needs (n := n)]
    exact countP_notMem_concat nodup_needs new
  constructor
  · intro n mem
    have degree := inv.degree n mem
    simpa [lowered n] using degree
  · intro n mem
    have reached := inv.reached n mem
    rw [next, lowered n] at reached
    simp only [names_concat, List.mem_append, List.mem_cons, List.not_mem_nil] at reached ⊢
    split at reached
    · simp_all
    · simp_all
      tauto
  · simpa [names_concat] using nodup
  · intro svc' mem'
    rcases List.mem_append.mp mem' with mem' | mem'
    · exact inv.sorted svc' mem'
    · obtain rfl := List.mem_singleton.mp mem'
      exact mem
  · exact fun n mem => inv.queued n (by simp [next, mem])
  · have none_missing := ((inv.reached _ known).mp (.inr (by simp [next]))).1
    rw [names_concat]
    exact ordered_concat.mpr ⟨inv.ordered, fun d declares =>
      needs_of_missing_eq_zero tables none_missing declares⟩

/-- One dependent is released; it joins the queue when it misses nothing more. -/
theorem Sorting.Inv.release {dependent : String} (inv : s.Inv services g (dependent :: rest))
    (fresh : dependent ∉ rest) (known : dependent ∈ names services) :
    ∃ s', releaseDependent s dependent = .ok s' ∧ s'.Inv services g rest ∧
      s'.result = s.result := by
  have degree := inv.degree dependent known
  have unreached : ¬ (dependent ∈ names s.result ∨ dependent ∈ s.queue) := by
    rw [inv.reached dependent known]
    simp
  rw [if_pos List.mem_cons_self] at degree
  set deg := g.missing s dependent with deg_eq
  have released : releaseDependent s dependent = .ok { s with
      inDegree := s.inDegree.insert dependent deg
      queue := if deg = 0 then s.queue ++ [dependent] else s.queue } := by
    rw [releaseDependent, degree]
  refine ⟨_, released, ?_, rfl⟩
  constructor
  · intro n mem
    rw [HashMap.get_insert]
    by_cases same : n = dependent
    · subst same
      rw [if_pos rfl, if_neg fresh]
      rfl
    · have other := inv.degree n mem
      rw [if_neg same]
      simpa [same, missing] using other
  · intro n mem
    have other := inv.reached n mem
    by_cases same : n = dependent
    · subst same
      simp only [missing] at deg_eq
      by_cases zero : deg = 0
      · simp only [zero, if_true, List.mem_append, List.mem_singleton, or_true, true_iff]
        exact ⟨by rw [missing, ← deg_eq, zero], fresh⟩
      · simp only [zero, if_false, unreached, false_iff, missing, ← deg_eq]
        tauto
    · by_cases zero : deg = 0
      · simpa [zero, same, missing] using other
      · simpa [zero, same, missing] using other
  · by_cases zero : deg = 0
    · rw [if_pos zero, ← List.append_assoc]
      refine List.Nodup.append inv.nodup (List.nodup_singleton _) ?_
      simpa using unreached
    · rw [if_neg zero]
      exact inv.nodup
  · exact inv.sorted
  · intro n mem
    by_cases zero : deg = 0
    · rw [if_pos zero, List.mem_append, List.mem_singleton] at mem
      rcases mem with mem | rfl
      · exact inv.queued n mem
      · exact known
    · rw [if_neg zero] at mem
      exact inv.queued n mem
  · exact inv.ordered

/-- All dependents of a service are released. -/
theorem Sorting.Inv.releaseAll (inv : s.Inv services g rest) (nodup : rest.Nodup)
    (known : ∀ n ∈ rest, n ∈ names services) :
    ∃ s', rest.foldlM releaseDependent s = .ok s' ∧ s'.Inv services g [] ∧
      s'.result = s.result := by
  induction rest generalizing s with
  | nil => exact ⟨s, rfl, inv, rfl⟩
  | cons dependent rest ih =>
    obtain ⟨fresh, nodup⟩ := List.nodup_cons.mp nodup
    obtain ⟨knownHere, known⟩ := List.forall_mem_cons.mp known
    obtain ⟨s', ok, inv', same⟩ := inv.release fresh knownHere
    obtain ⟨s'', ok', inv'', same'⟩ := ih inv' nodup known
    rw [List.foldlM_cons, ok]
    exact ⟨s'', ok', inv'', same'.trans same⟩

/-- The loop ends with the queue empty, within as many turns as there are services left. -/
theorem sortLoop_spec (orders : Orders) (tables : g.Tables services) (fuel : Nat) (inv : s.Inv services g [])
    (enough : services.length ≤ s.result.length + fuel) :
    ∃ s', sortLoop orders g fuel s = .ok s' ∧ s'.Inv services g [] ∧ s'.queue = [] := by
  induction fuel generalizing s with
  | zero =>
    cases next : s.queue with
    | nil => exact ⟨s, by rw [sortLoop, next], inv, next⟩
    | cons name queue =>
      -- The result and the queue together are no longer than the list of services.
      have sub : names s.result ++ s.queue ⊆ names services := by
        intro n mem
        rcases List.mem_append.mp mem with mem | mem
        · obtain ⟨svc, sorted, rfl⟩ := List.mem_map.mp mem
          exact List.mem_map_of_mem (inv.sorted svc sorted)
        · exact inv.queued n mem
      have short := (List.subperm_of_subset inv.nodup sub).length_le
      simp only [next, names, List.length_append, List.length_map, List.length_cons] at short
      omega
  | succ fuel ih =>
    cases next : s.queue with
    | nil => exact ⟨s, by rw [sortLoop, next], inv, next⟩
    | cons name queue =>
      obtain ⟨svc, mem, named⟩ := List.mem_map.mp (inv.queued name (by simp [next]))
      have found := (tables.found name svc).mpr ⟨mem, named⟩
      have known : ∀ n ∈ dependentList orders g name, n ∈ names services := fun n mem =>
        names_of_declares (tables.mem_dependentList.mp mem)
      obtain ⟨s', ok, inv', same⟩ := (inv.pop orders tables next found).releaseAll
        nodup_dependentList known
      obtain ⟨s'', ok', done⟩ := ih inv' (by rw [same, List.length_append, List.length_singleton]; omega)
      refine ⟨s'', ?_, done⟩
      rw [sortLoop, next]
      simp only [found, ok]
      exact ok'

/-! ### The result -/

theorem inv_initial (orders : Orders) {inDegree : HashMap String Nat}
    (degrees : ∀ n k, inDegree.get n = some k ↔ n ∈ names services ∧ k = g.degree n) :
    Sorting.Inv services g []
      ⟨[], inDegree, (orders.inDegree.run inDegree.keys).filter fun n => inDegree.get n = some 0⟩ := by
  have all_missing : ∀ n, g.missing ⟨[], inDegree,
      (orders.inDegree.run inDegree.keys).filter fun n => inDegree.get n = some 0⟩ n = g.degree n := by
    intro n
    rw [← length_needs, missing, List.countP_eq_length]
    simp [names]
  constructor
  · intro n mem
    rw [all_missing]
    simpa using (degrees n _).mpr ⟨mem, rfl⟩
  · intro n mem
    rw [all_missing]
    have degree := (degrees n _).mpr ⟨mem, rfl⟩
    have keys : n ∈ inDegree.keys := HashMap.mem_keys.mpr ⟨_, degree⟩
    simp [names, (orders.inDegree.perm _).mem_iff, keys, degree]
  · simp only [names, List.map_nil, List.nil_append]
    exact ((orders.inDegree.perm _).nodup_iff.mpr inDegree.keys_nodup).filter _
  · simp
  · intro n mem
    exact ((degrees n 0).mp (by simpa using (List.mem_filter.mp mem).2)).1
  · exact ordered_nil

/-- When the queue is empty, every service is in the result. -/
theorem Sorting.Inv.complete (tables : g.Tables services) (inv : s.Inv services g [])
    (empty : s.queue = []) {order : List String} (ordered : Ordered (Declares services) order)
    (all : ∀ n ∈ names services, n ∈ order) : ∀ n ∈ names services, n ∈ names s.result := by
  by_contra incomplete
  push Not at incomplete
  obtain ⟨n, mem, out⟩ := incomplete
  obtain ⟨a, -, first, earlier⟩ := ordered.exists_first
    (fun n => n ∈ names services → n ∈ names s.result) ⟨n, all n mem, fun inside => out (inside mem)⟩
  push Not at first
  obtain ⟨known, out⟩ := first
  have none_missing : g.missing s a = 0 := by
    rw [missing, List.countP_eq_zero]
    intro d needed
    have declares := tables.mem_needs.mp needed
    simpa using earlier d declares (tables.closed a d declares)
  rcases (inv.reached a known).mpr ⟨none_missing, List.not_mem_nil⟩ with inside | inside
  · exact out inside
  · rw [empty] at inside
    exact absurd inside List.not_mem_nil

/-- **`topological_sort`** of a graph that `new` has built returns every service once, each
after all its dependencies; nothing in it fails. -/
theorem topologicalSort_spec (built : Orders) (distinct : (names services).Nodup)
    (ok : new built services = .ok g) (orders : Orders) :
    ∃ result, topologicalSort orders g = .ok result ∧ result.Perm services ∧
      Ordered (Declares services) (names result) := by
  rcases new_cases built distinct with ⟨g', ok', tables, order, -, ordered, all⟩ |
    ⟨a, b, failed, -⟩ | ⟨c, failed, -⟩
  · obtain rfl : g' = g := Except.ok.inj (ok'.symm.trans ok)
    have nodup : ((g'.services.keys.map fun k => (k, g'.degree k)).map Prod.fst).Nodup := by
      rw [List.map_map, Function.comp_def, List.map_id']
      exact g'.services.keys_nodup
    have degrees : ∀ n k, (HashMap.collect (g'.services.keys.map fun k => (k, g'.degree k))).get n =
        some k ↔ n ∈ names services ∧ k = g'.degree n := by
      intro n k
      rw [HashMap.get_collect nodup]
      simp only [List.mem_map, Prod.mk.injEq, tables.mem_keys]
      constructor
      · rintro ⟨m, mem, rfl, rfl⟩
        exact ⟨mem, rfl⟩
      · rintro ⟨mem, rfl⟩
        exact ⟨n, mem, rfl, rfl⟩
    have fuel : services.length ≤ g'.services.len := by
      have sub : names services ⊆ g'.services.keys := fun n mem => tables.mem_keys.mpr mem
      rw [HashMap.len_eq_keys]
      simpa [names] using (List.subperm_of_subset distinct sub).length_le
    obtain ⟨s, sorted, inv, empty⟩ := sortLoop_spec orders tables g'.services.len
      (inv_initial orders degrees) (by simpa using fuel)
    refine ⟨s.result, by rw [topologicalSort]; simp only [sorted]; rfl, ?_, inv.ordered⟩
    have resultNodup := (List.nodup_append.mp inv.nodup).1
    refine (List.perm_ext_iff_of_nodup resultNodup.of_map distinct.of_map).mpr fun svc => ?_
    refine ⟨inv.sorted svc, fun mem => ?_⟩
    obtain ⟨svc', mem', same⟩ := List.mem_map.mp
      (inv.complete tables empty ordered all svc.name (List.mem_map_of_mem mem))
    rwa [← List.inj_on_of_nodup_map distinct (inv.sorted svc' mem') mem same]
  · rw [ok] at failed
    cases failed
  · rw [ok] at failed
    cases failed

end DependencyGraph

end Monitord
