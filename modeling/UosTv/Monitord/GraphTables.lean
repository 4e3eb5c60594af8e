import UosTv.Monitord.Graph
import UosTv.Lib.DependencyOrder

/-!
What the tables of the dependency graph hold.

`Tables` says of a graph that its three tables are those of a list of manifests: the
services under their names, and the dependency relation twice, once in each direction.
`build_cases` is all that `build` can do: these tables, or the first dependency that no
manifest has.
-/

namespace Monitord

open DependencyOrder Rust

/-- Service `a` declares a dependency on `b`. -/
def Declares (services : List ServiceManifest) (a b : String) : Prop :=
  ∃ svc ∈ services, svc.name = a ∧ b ∈ svc.dependencies

/-- The names of the manifests. -/
def names (services : List ServiceManifest) : List String := services.map (·.name)

/-- A table of sets holds `b` in the set of `a`. -/
def HasEdge (table : HashMap String (HashSet String)) (a b : String) : Prop :=
  ∃ set, table.get a = some set ∧ b ∈ set

namespace DependencyGraph

/-- The edge tables have a set for each of `ns` and hold the relation `rel`. -/
structure Edges.Hold (edges : Edges) (ns : List String) (rel : String → String → Prop) : Prop where
  depsKeys : ∀ n, n ∈ edges.deps.keys ↔ n ∈ ns
  dependentsKeys : ∀ n, n ∈ edges.dependents.keys ↔ n ∈ ns
  deps : ∀ a b, HasEdge edges.deps a b ↔ rel a b
  dependents : ∀ a b, HasEdge edges.dependents b a ↔ rel a b

/-- The tables are those of the manifests. -/
structure Tables (services : List ServiceManifest) (g : DependencyGraph) : Prop where
  found : ∀ n svc, g.services.get n = some svc ↔ svc ∈ services ∧ svc.name = n
  depsKeys : ∀ n, n ∈ g.dependencies.keys ↔ n ∈ names services
  dependentsKeys : ∀ n, n ∈ g.dependents.keys ↔ n ∈ names services
  deps : ∀ a b, HasEdge g.dependencies a b ↔ Declares services a b
  dependents : ∀ a b, HasEdge g.dependents b a ↔ Declares services a b
  closed : ∀ a b, Declares services a b → b ∈ names services

section Upsert

variable {table : HashMap String (HashSet String)} {a b b' c : String}

/-- Inserting into the set under a key adds one edge. -/
theorem hasEdge_upsert_insert :
    HasEdge (table.upsert c .new fun set => set.insert b) a b' ↔
      a = c ∧ b' = b ∨ HasEdge table a b' := by
  simp only [HasEdge, HashMap.get_upsert]
  by_cases same : a = c
  · subst same
    cases present : table.get a with
    | none => simp
    | some set => simp
  · simp [same]

/-- Making sure that a key is there adds no edge. -/
theorem hasEdge_upsert_id : HasEdge (table.upsert c .new id) a b ↔ HasEdge table a b := by
  simp only [HasEdge, HashMap.get_upsert]
  by_cases same : a = c
  · subst same
    cases present : table.get a with
    | none => simp
    | some set => simp
  · simp [same]

end Upsert

section Build

variable {services : List ServiceManifest} {serviceMap : HashMap String ServiceManifest}
  {svc : ServiceManifest} {edges : Edges} {ns : List String} {rel : String → String → Prop}
  {dep : String}

theorem hold_foldl_initEdges (services : List ServiceManifest) :
    Edges.Hold (services.foldl initEdges ⟨∅, ∅⟩) (names services) fun _ _ => False := by
  induction services using List.reverseRecOn with
  | nil =>
    constructor <;> simp [names, HasEdge]
  | append_singleton services svc ih =>
    rw [List.foldl_append, List.foldl_cons, List.foldl_nil, initEdges]
    constructor
    · intro n
      simp [HashMap.mem_keys_upsert, ih.depsKeys, names, or_comm]
    · intro n
      simp [HashMap.mem_keys_upsert, ih.dependentsKeys, names, or_comm]
    · intro a b
      rw [hasEdge_upsert_id, ih.deps]
    · intro a b
      rw [hasEdge_upsert_id, ih.dependents]

/-- One dependency: its edge is added to both tables, or it is missing. -/
theorem addEdge_cases (hold : edges.Hold ns rel) (known : svc.name ∈ ns)
    (all : ∀ n, serviceMap.get n ≠ none → n ∈ ns) (dep : String) :
    (∃ edges', addEdge serviceMap svc edges dep = .ok edges' ∧ serviceMap.get dep ≠ none ∧
        edges'.Hold ns fun a b => a = svc.name ∧ b = dep ∨ rel a b) ∨
      serviceMap.get dep = none ∧
        addEdge serviceMap svc edges dep = .error (.error (.missingDependency svc.name dep)) := by
  by_cases missing : serviceMap.get dep = none
  · exact .inr ⟨missing, if_pos missing⟩
  · refine .inl ⟨_, if_neg missing, missing, ?_, ?_, ?_, ?_⟩
    · intro n
      rw [HashMap.mem_keys_upsert, hold.depsKeys, or_iff_right_of_imp]
      rintro rfl
      exact known
    · intro n
      rw [HashMap.mem_keys_upsert, hold.dependentsKeys, or_iff_right_of_imp]
      rintro rfl
      exact all _ missing
    · intro a b
      rw [hasEdge_upsert_insert, hold.deps]
    · intro a b
      rw [hasEdge_upsert_insert, hold.dependents, and_comm]

/-- The dependencies of one service, of which those in `deps` are still to come. -/
theorem foldlM_addEdge_cases (known : svc.name ∈ ns)
    (all : ∀ n, serviceMap.get n ≠ none → n ∈ ns) (deps : List String) (hold : edges.Hold ns rel) :
    (∃ edges', deps.foldlM (addEdge serviceMap svc) edges = .ok edges' ∧
        (∀ dep ∈ deps, serviceMap.get dep ≠ none) ∧
        edges'.Hold ns fun a b => a = svc.name ∧ b ∈ deps ∨ rel a b) ∨
      ∃ dep ∈ deps, serviceMap.get dep = none ∧
        deps.foldlM (addEdge serviceMap svc) edges =
          .error (.error (.missingDependency svc.name dep)) := by
  induction deps generalizing edges rel with
  | nil => exact .inl ⟨edges, rfl, by simp, by simpa using hold⟩
  | cons dep deps ih =>
    rw [List.foldlM_cons]
    rcases addEdge_cases hold known all dep with ⟨edges', added, present, hold⟩ | ⟨missing, failed⟩
    · rw [added]
      rcases ih hold with ⟨edges'', rest, presents, hold⟩ | ⟨dep', mem, missing, failed⟩
      · refine .inl ⟨edges'', rest, List.forall_mem_cons.mpr ⟨present, presents⟩, ?_⟩
        convert hold using 3
        rw [List.mem_cons]
        tauto
      · exact .inr ⟨dep', List.mem_cons_of_mem _ mem, missing, failed⟩
    · exact .inr ⟨dep, List.mem_cons_self, missing, by rw [failed]; rfl⟩

/-- The services, of which those in `services` are still to come. -/
theorem foldlM_addEdges_cases (services : List ServiceManifest)
    (known : ∀ svc ∈ services, svc.name ∈ ns) (all : ∀ n, serviceMap.get n ≠ none → n ∈ ns)
    (hold : edges.Hold ns rel) :
    (∃ edges', services.foldlM (addEdges serviceMap) edges = .ok edges' ∧
        (∀ a b, Declares services a b → serviceMap.get b ≠ none) ∧
        edges'.Hold ns fun a b => Declares services a b ∨ rel a b) ∨
      ∃ a b, Declares services a b ∧ serviceMap.get b = none ∧
        services.foldlM (addEdges serviceMap) edges = .error (.error (.missingDependency a b)) := by
  induction services generalizing edges rel with
  | nil => exact .inl ⟨edges, rfl, by simp [Declares], by simpa [Declares] using hold⟩
  | cons svc services ih =>
    obtain ⟨knownHere, known⟩ := List.forall_mem_cons.mp known
    have declares : ∀ a b, Declares (svc :: services) a b ↔
        a = svc.name ∧ b ∈ svc.dependencies ∨ Declares services a b := by
      intro a b
      simp [Declares, eq_comm]
    rw [List.foldlM_cons]
    rcases foldlM_addEdge_cases knownHere all svc.dependencies hold with
      ⟨edges', added, presents, hold⟩ | ⟨dep, mem, missing, failed⟩
    · rw [addEdges, added]
      rcases ih known hold with ⟨edges'', rest, presents', hold⟩ | ⟨a, b, declared, missing, failed⟩
      · refine .inl ⟨edges'', rest, fun a b declared => ?_, ?_⟩
        · rcases (declares a b).mp declared with ⟨-, mem⟩ | declared
          · exact presents b mem
          · exact presents' a b declared
        · convert hold using 3
          rw [declares]
          tauto
      · exact .inr ⟨a, b, (declares a b).mpr (.inr declared), missing, failed⟩
    · exact .inr ⟨svc.name, dep, (declares _ _).mpr (.inl ⟨rfl, mem⟩), missing,
        by rw [addEdges, failed]; rfl⟩

/-- All that building the tables can do. -/
theorem build_cases (distinct : (names services).Nodup) :
    (∃ g, build services = .ok g ∧ g.Tables services) ∨
      ∃ a b, Declares services a b ∧ b ∉ names services ∧
        build services = .error (.error (.missingDependency a b)) := by
  have nodup : ((services.map fun svc => (svc.name, svc)).map Prod.fst).Nodup := by
    rw [List.map_map]
    exact distinct
  have found : ∀ n svc, (HashMap.collect (services.map fun svc => (svc.name, svc))).get n = some svc ↔
      svc ∈ services ∧ svc.name = n := by
    intro n svc
    rw [HashMap.get_collect nodup]
    simp only [List.mem_map, Prod.mk.injEq]
    constructor
    · rintro ⟨svc', mem, rfl, rfl⟩
      exact ⟨mem, rfl⟩
    · rintro ⟨mem, rfl⟩
      exact ⟨svc, mem, rfl, rfl⟩
  have missing_iff : ∀ n, (HashMap.collect (services.map fun svc => (svc.name, svc))).get n = none ↔
      n ∉ names services := by
    intro n
    rw [Option.eq_none_iff_forall_ne_some]
    simp only [ne_eq, found, names, List.mem_map]
    push Not
    rfl
  have all : ∀ n, (HashMap.collect (services.map fun svc => (svc.name, svc))).get n ≠ none →
      n ∈ names services := fun n present => not_not.mp (mt (missing_iff n).mpr present)
  rcases foldlM_addEdges_cases services (fun svc mem => List.mem_map_of_mem mem) all
    (hold_foldl_initEdges services) with ⟨edges, added, presents, hold⟩ | ⟨a, b, declared, missing, failed⟩
  · refine .inl ⟨_, by rw [build, added]; rfl, found, hold.depsKeys, hold.dependentsKeys, ?_, ?_, ?_⟩
    · simpa using hold.deps
    · simpa using hold.dependents
    · exact fun a b declared => all b (presents a b declared)
  · exact .inr ⟨a, b, declared, (missing_iff b).mp missing, by rw [build, failed]; rfl⟩

end Build

end DependencyGraph

end Monitord
