import UosTv.Monitord.GraphTables
import Mathlib.Data.List.Count
import Mathlib.Tactic.IntervalCases

/-!
`DependencyGraph::new` accepts exactly the acyclic manifest lists without missing
dependencies (`new_iff`).

The search is a coloured depth-first search shared by all roots. `Search.Inv` is its
invariant: the services in progress are the path, which is a chain of declared
dependencies, and the finished services, in the order in which they were finished, come
each after all that it needs. A service in progress that is met again closes a cycle; when
every service is finished, the finishing order certifies that there is none.
-/

namespace Monitord

open DependencyOrder Rust

namespace DependencyGraph

variable {orders : Orders} {services : List ServiceManifest} {g : DependencyGraph}
  {s : Search} {done : List String} {node dep : String}

/-- `done` holds the finished services, in the order in which they were finished. -/
structure Search.Inv (services : List ServiceManifest) (s : Search) (done : List String) :
    Prop where
  colored : ∀ n ∈ names services, ∃ c ≤ 2, s.color.get n = some c
  active : ∀ n, s.color.get n = some 1 ↔ n ∈ s.path
  finished : ∀ n, s.color.get n = some 2 ↔ n ∈ done
  pathNodup : s.path.Nodup
  chain : s.path.IsChain (Declares services)
  doneNodup : done.Nodup
  ordered : Ordered (Declares services) done

/-- How many services are unvisited. -/
def Search.fresh (g : DependencyGraph) (s : Search) : Nat :=
  g.services.keys.countP fun n => s.color.get n = some 0

/-- What a part of the search can do: go on with the same path and more finished services,
of which `Q` holds, or report a cycle. -/
def Outcome (services : List ServiceManifest) (g : DependencyGraph) (s : Search)
    (done : List String) (Q : List String → Prop) (result : Except Fault Search) : Prop :=
  (∃ s' done', result = .ok s' ∧ s'.Inv services done' ∧ s'.path = s.path ∧ done ⊆ done' ∧
      s'.fresh g ≤ s.fresh g ∧ Q done') ∨
    ∃ c, result = .error (.error (.circularDependency c)) ∧ Cycle (Declares services) c

theorem Tables.mem_depList (tables : g.Tables services) (orders : Orders) :
    dep ∈ depList orders g node ↔ Declares services node dep := by
  rw [← tables.deps, depList, HasEdge]
  cases present : g.dependencies.get node with
  | none => simp
  | some set => simp [((orders.dependencies node).perm set.elems).mem_iff]

theorem Tables.mem_keys (tables : g.Tables services) {n : String} :
    n ∈ g.services.keys ↔ n ∈ names services := by
  simp [HashMap.mem_keys, tables.found, names]

theorem names_of_declares {a b : String} (declares : Declares services a b) :
    a ∈ names services := by
  obtain ⟨svc, mem, rfl, -⟩ := declares
  exact List.mem_map_of_mem mem

/-! ### Colours -/

/-- A node is put in progress at the end of the path. -/
theorem Search.Inv.enter (inv : s.Inv services done) (unvisited : s.color.get node = some 0)
    (next : ∀ last ∈ s.path.getLast?, Declares services last node) :
    Search.Inv services ⟨s.color.insert node 1, s.path ++ [node]⟩ done := by
  have off : node ∉ s.path := by
    rw [← inv.active, unvisited]
    simp
  constructor
  · intro n mem
    rw [HashMap.get_insert]
    split
    · exact ⟨1, by omega, rfl⟩
    · exact inv.colored n mem
  · intro n
    rw [HashMap.get_insert, List.mem_append, List.mem_singleton, ← inv.active]
    split
    · simp_all
    · simp_all
  · intro n
    rw [HashMap.get_insert, ← inv.finished]
    split
    · simp_all
    · rfl
  · exact List.Nodup.append inv.pathNodup (List.nodup_singleton _) (by simpa using off)
  · refine List.isChain_append.mpr ⟨inv.chain, List.isChain_singleton _, ?_⟩
    simpa using next
  · exact inv.doneNodup
  · exact inv.ordered

/-- The node at the end of the path is finished: all that it needs is. -/
theorem Search.Inv.leave {path : List String} (inv : s.Inv services done)
    (ends : s.path = path ++ [node]) (needs : ∀ b, Declares services node b → b ∈ done) :
    Search.Inv services ⟨s.color.insert node 2, s.path.dropLast⟩ (done ++ [node]) := by
  have active : s.color.get node = some 1 := (inv.active node).mpr (by simp [ends])
  have nodup := inv.pathNodup
  have chain := inv.chain
  rw [ends, List.nodup_append] at nodup
  rw [ends, List.isChain_append] at chain
  have off : node ∉ path := fun mem => nodup.2.2 node mem node List.mem_cons_self rfl
  have new : node ∉ done := by
    rw [← inv.finished, active]
    simp
  constructor
  · intro n mem
    rw [HashMap.get_insert]
    split
    · exact ⟨2, by omega, rfl⟩
    · exact inv.colored n mem
  · intro n
    rw [HashMap.get_insert, ends, List.dropLast_concat]
    split
    · simp_all
    · rw [inv.active, ends, List.mem_append, List.mem_singleton]
      simp_all
  · intro n
    rw [HashMap.get_insert, List.mem_append, List.mem_singleton, ← inv.finished]
    split
    · simp_all
    · simp_all
  · rw [ends, List.dropLast_concat]
    exact nodup.1
  · rw [ends, List.dropLast_concat]
    exact chain.1
  · exact List.Nodup.append inv.doneNodup (List.nodup_singleton _) (by simpa using new)
  · exact ordered_concat.mpr ⟨inv.ordered, needs⟩

theorem fresh_enter_lt (path : List String) (tables : g.Tables services) (mem : node ∈ names services)
    (unvisited : s.color.get node = some 0) :
    Search.fresh g ⟨s.color.insert node 1, path⟩ < s.fresh g := by
  unfold Search.fresh
  have fewer : ∀ n, ((s.color.insert node 1).get n = some 0) ↔
      (n ≠ node ∧ s.color.get n = some 0) := by
    intro n
    rw [HashMap.get_insert]
    split
    · simp_all
    · simp_all
  simp only [fewer, Bool.decide_and]
  rw [← List.countP_filter, List.countP_eq_length_filter (p := fun n => decide (s.color.get n = some 0))]
  refine List.countP_lt_length_iff.mpr ⟨node, ?_, by simp⟩
  simp [tables.mem_keys, mem, unvisited]

/-- Finishing the node at the end of the path makes no node unvisited. -/
theorem fresh_leave (ends : s.color.get node = some 1) {path : List String} :
    Search.fresh g ⟨s.color.insert node 2, path⟩ = s.fresh g := by
  unfold Search.fresh
  congr 1
  funext n
  rw [HashMap.get_insert]
  split
  · simp_all
  · rfl

/-! ### The search -/

theorem Outcome.mono {Q Q' : List String → Prop} {result : Except Fault Search}
    (outcome : Outcome services g s done Q result) (weaker : ∀ done', done ⊆ done' → Q done' → Q' done') :
    Outcome services g s done Q' result := by
  rcases outcome with ⟨s', done', ok, inv, path, more, fresh, q⟩ | failed
  · exact .inl ⟨s', done', ok, inv, path, more, fresh, weaker done' more q⟩
  · exact .inr failed

/-- One dependency, when the recursive call does what it should. -/
theorem visitDep_outcome {dfs : String → Search → Except Fault Search} {fuel : Nat}
    (recurses : ∀ {s done dep}, Search.Inv services s done → s.color.get dep = some 0 →
      dep ∈ names services → (∀ last ∈ s.path.getLast?, Declares services last dep) →
      s.fresh g ≤ fuel → Outcome services g s done (dep ∈ ·) (dfs dep s))
    (tables : g.Tables services) (inv : s.Inv services done) (ends : s.path.getLast? = some node)
    (needs : Declares services node dep) (enough : s.fresh g ≤ fuel) :
    Outcome services g s done (dep ∈ ·) (visitDep dfs s dep) := by
  have mem := tables.closed node dep needs
  obtain ⟨c, small, colored⟩ := inv.colored dep mem
  have next : ∀ last ∈ s.path.getLast?, Declares services last dep := by
    rw [ends]
    rintro last ⟨⟩
    exact needs
  rw [visitDep, colored]
  interval_cases c
  · exact recurses inv colored mem next enough
  · have onPath := (inv.active dep).mp colored
    obtain ⟨i, found⟩ := Option.ne_none_iff_exists'.mp (mt List.idxOf?_eq_none_iff.mp (not_not.mpr onPath))
    obtain ⟨lt, at_i, -⟩ := List.idxOf?_eq_some_iff.mp found
    simp only [found, if_pos]
    exact .inr ⟨_, rfl, cycle_drop inv.pathNodup inv.chain
      (List.getElem?_eq_some_iff.mpr ⟨lt, at_i⟩) ends needs⟩
  · exact .inl ⟨s, done, rfl, inv, rfl, List.Subset.refl _, le_refl _, (inv.finished dep).mp colored⟩

/-- The dependencies of a node, of which those in `deps` are still to come. -/
theorem foldlM_visitDep_outcome {dfs : String → Search → Except Fault Search} {fuel : Nat}
    (recurses : ∀ {s done dep}, Search.Inv services s done → s.color.get dep = some 0 →
      dep ∈ names services → (∀ last ∈ s.path.getLast?, Declares services last dep) →
      s.fresh g ≤ fuel → Outcome services g s done (dep ∈ ·) (dfs dep s))
    (tables : g.Tables services) {deps : List String} (inv : s.Inv services done)
    (ends : s.path.getLast? = some node) (needs : ∀ dep ∈ deps, Declares services node dep)
    (enough : s.fresh g ≤ fuel) :
    Outcome services g s done (fun done' => ∀ dep ∈ deps, dep ∈ done')
      (deps.foldlM (visitDep dfs) s) := by
  induction deps generalizing s done with
  | nil => exact .inl ⟨s, done, rfl, inv, rfl, List.Subset.refl _, le_refl _, by simp⟩
  | cons dep deps ih =>
    obtain ⟨needsHere, needs⟩ := List.forall_mem_cons.mp needs
    rw [List.foldlM_cons]
    rcases visitDep_outcome recurses tables inv ends needsHere enough with
      ⟨s', done', ok, inv', path, more, fewer, mem⟩ | ⟨c, failed, cycle⟩
    · rw [ok]
      rcases ih inv' (path ▸ ends) needs (fewer.trans enough) with
        ⟨s'', done'', ok', inv'', path', more', fewer', all⟩ | ⟨c, failed, cycle⟩
      · exact .inl ⟨s'', done'', ok', inv'', path'.trans path, List.Subset.trans more more',
          fewer'.trans fewer, List.forall_mem_cons.mpr ⟨more' mem, all⟩⟩
      · exact .inr ⟨c, failed, cycle⟩
    · exact .inr ⟨c, by rw [failed]; rfl, cycle⟩

/-- **The search from one node.** With fuel for the unvisited services, it finishes the node
or reports a cycle; no lookup fails. -/
theorem dfsCycleDetect_outcome (tables : g.Tables services) (fuel : Nat) {s : Search}
    {done : List String} {node : String} (inv : s.Inv services done)
    (unvisited : s.color.get node = some 0) (mem : node ∈ names services)
    (next : ∀ last ∈ s.path.getLast?, Declares services last node) (enough : s.fresh g ≤ fuel) :
    Outcome services g s done (node ∈ ·) (dfsCycleDetect orders g fuel node s) := by
  induction fuel generalizing s done node with
  | zero =>
    have fewer := fresh_enter_lt s.path tables mem unvisited
    omega
  | succ fuel ih =>
    have inv' := inv.enter unvisited next
    have fewer := fresh_enter_lt (s.path ++ [node]) tables mem unvisited
    rw [dfsCycleDetect]
    rcases foldlM_visitDep_outcome (fun inv unvisited mem next enough => ih inv unvisited mem next enough)
      tables inv' List.getLast?_concat (fun dep mem => (tables.mem_depList orders).mp mem)
      (by omega) with ⟨s', done', ok, inv'', path, more, fewer', all⟩ | ⟨c, failed, cycle⟩
    · rw [ok]
      refine .inl ⟨_, done' ++ [node], rfl, inv''.leave path ?_, ?_, ?_, ?_, ?_⟩
      · exact fun b needs => all b ((tables.mem_depList orders).mpr needs)
      · rw [path, List.dropLast_concat]
      · exact List.Subset.trans more (List.subset_append_left _ _)
      · rw [fresh_leave ((inv''.active node).mpr (by rw [path]; simp))]
        omega
      · exact List.mem_append_right _ (List.mem_singleton.mpr rfl)
    · exact .inr ⟨c, by rw [failed]; rfl, cycle⟩

/-- The roots, of which those in `roots` are still to come. -/
theorem foldlM_verifyFrom_outcome (orders : Orders) (tables : g.Tables services) {roots : List String}
    (inv : s.Inv services done) (empty : s.path = []) (known : ∀ n ∈ roots, n ∈ names services) :
    Outcome services g s done (fun done' => ∀ n ∈ roots, n ∈ done')
      (roots.foldlM (verifyFrom orders g) s) := by
  induction roots generalizing s done with
  | nil => exact .inl ⟨s, done, rfl, inv, rfl, List.Subset.refl _, le_refl _, by simp⟩
  | cons name roots ih =>
    obtain ⟨mem, known⟩ := List.forall_mem_cons.mp known
    have enough : s.fresh g ≤ g.services.len := by
      rw [HashMap.len_eq_keys]
      exact List.countP_le_length
    have here : Outcome services g s done (name ∈ ·) (verifyFrom orders g s name) := by
      obtain ⟨c, small, colored⟩ := inv.colored name mem
      rw [verifyFrom, colored]
      interval_cases c
      · exact dfsCycleDetect_outcome tables _ inv colored mem (by simp [empty]) enough
      · have onPath := (inv.active name).mp colored
        simp [empty] at onPath
      · exact .inl ⟨s, done, rfl, inv, rfl, List.Subset.refl _, le_refl _,
          (inv.finished name).mp colored⟩
    rw [List.foldlM_cons]
    rcases here with ⟨s', done', ok, inv', path, more, fewer, mem⟩ | ⟨c, failed, cycle⟩
    · rw [ok]
      rcases ih inv' (path.trans empty) known with
        ⟨s'', done'', ok', inv'', path', more', fewer', all⟩ | ⟨c, failed, cycle⟩
      · exact .inl ⟨s'', done'', ok', inv'', path'.trans path, List.Subset.trans more more',
          fewer'.trans fewer, List.forall_mem_cons.mpr ⟨more' mem, all⟩⟩
      · exact .inr ⟨c, failed, cycle⟩
    · exact .inr ⟨c, by rw [failed]; rfl, cycle⟩

theorem inv_start (tables : g.Tables services) : Search.Inv services
    ⟨HashMap.collect (g.services.keys.map fun k => (k, 0)), []⟩ [] := by
  have nodup : ((g.services.keys.map fun k => (k, 0)).map Prod.fst).Nodup := by
    rw [List.map_map, Function.comp_def, List.map_id']
    exact g.services.keys_nodup
  have colors : ∀ n c, (HashMap.collect (g.services.keys.map fun k => (k, 0))).get n = some c ↔
      n ∈ names services ∧ c = 0 := by
    intro n c
    rw [HashMap.get_collect nodup]
    simp [tables.mem_keys, eq_comm]
  constructor
  · exact fun n mem => ⟨0, by omega, (colors n 0).mpr ⟨mem, rfl⟩⟩
  · simp [colors]
  · simp [colors]
  · exact List.nodup_nil
  · exact List.isChain_nil
  · exact List.nodup_nil
  · exact ordered_nil

/-- All that the check for cycles can do: certify an order, or report a cycle. -/
theorem verifyNoCycles_cases (orders : Orders) (tables : g.Tables services) :
    (verifyNoCycles orders g = .ok () ∧ ∃ order : List String, order.Nodup ∧
        Ordered (Declares services) order ∧ ∀ n ∈ names services, n ∈ order) ∨
      ∃ c, verifyNoCycles orders g = .error (.error (.circularDependency c)) ∧
        Cycle (Declares services) c := by
  have known : ∀ n ∈ orders.services.run g.services.keys, n ∈ names services := by
    intro n mem
    exact tables.mem_keys.mp (((orders.services.perm _).mem_iff).mp mem)
  rcases foldlM_verifyFrom_outcome orders tables (inv_start tables) rfl known with
    ⟨s', done', ok, inv, -, -, -, all⟩ | ⟨c, failed, cycle⟩
  · refine .inl ⟨by rw [verifyNoCycles, ok]; rfl, done', inv.doneNodup, inv.ordered, fun n mem => ?_⟩
    exact all n (((orders.services.perm _).mem_iff).mpr (tables.mem_keys.mpr mem))
  · exact .inr ⟨c, by rw [verifyNoCycles, failed]; rfl, cycle⟩

/-- All that `new` can do. -/
theorem new_cases (orders : Orders) (distinct : (names services).Nodup) :
    (∃ g, new orders services = .ok g ∧ g.Tables services ∧ ∃ order : List String, order.Nodup ∧
        Ordered (Declares services) order ∧ ∀ n ∈ names services, n ∈ order) ∨
      (∃ a b, new orders services = .error (.error (.missingDependency a b)) ∧
        Declares services a b ∧ b ∉ names services) ∨
      ∃ c, new orders services = .error (.error (.circularDependency c)) ∧
        Cycle (Declares services) c ∧ ∀ a b, Declares services a b → b ∈ names services := by
  rcases build_cases distinct with ⟨g, built, tables⟩ | ⟨a, b, declared, missing, failed⟩
  · have checks : new orders services = verifyNoCycles orders g >>= fun _ => pure g := by
      rw [new, built]
      rfl
    rcases verifyNoCycles_cases orders tables with ⟨ok, order⟩ | ⟨c, failed, cycle⟩
    · exact .inl ⟨g, by rw [checks, ok]; rfl, tables, order⟩
    · exact .inr (.inr ⟨c, by rw [checks, failed]; rfl, cycle, tables.closed⟩)
  · exact .inr (.inl ⟨a, b, by rw [new, failed]; rfl, declared, missing⟩)

/-- **`DependencyGraph::new` decides acyclicity.** It succeeds iff every declared dependency
names a manifest and no service needs itself, directly or not. A missing dependency that it
reports is declared by that service and is no manifest's name; a cycle that it reports is
one. Nothing else happens: no lookup, index or `unwrap` fails. -/
theorem new_iff (orders : Orders) (services : List ServiceManifest)
    (distinct : (names services).Nodup) :
    ((∃ g, new orders services = .ok g) ↔
        (∀ a b, Declares services a b → b ∈ names services) ∧ Acyclic (Declares services)) ∧
      (∀ a b, new orders services = .error (.error (.missingDependency a b)) →
        Declares services a b ∧ b ∉ names services) ∧
      (∀ c, new orders services = .error (.error (.circularDependency c)) →
        Cycle (Declares services) c) ∧
      new orders services ≠ .error .panic ∧ new orders services ≠ .error .fuel := by
  rcases new_cases orders distinct with ⟨g, ok, tables, order, nodup, ordered, all⟩ |
    ⟨a, b, failed, declared, missing⟩ | ⟨c, failed, cycle, closed⟩
  · have acyclic := ordered.acyclic nodup fun a b needs => all a (names_of_declares needs)
    simp only [ok]
    exact ⟨⟨fun _ => ⟨tables.closed, acyclic⟩, fun _ => ⟨g, rfl⟩⟩, by simp, by simp, by simp, by simp⟩
  · simp only [failed]
    refine ⟨⟨by simp, fun all => absurd (all.1 a b declared) missing⟩, ?_, by simp, by simp, by simp⟩
    rintro a b ⟨⟩
    exact ⟨declared, missing⟩
  · simp only [failed]
    refine ⟨⟨by simp, fun all => absurd all.2 cycle.not_acyclic⟩, by simp, ?_, by simp, by simp⟩
    rintro c ⟨⟩
    exact cycle

/-- Two services that need each other. -/
def circularServices : List ServiceManifest :=
  [{ ServiceManifest.default "a" "/bin/a" with dependencies := ["b"] },
    { ServiceManifest.default "b" "/bin/b" with dependencies := ["a"] }]

theorem new_iff_circular : Cycle (Declares circularServices) ["b", "a"] ∧
    ¬ Acyclic (Declares circularServices) := by
  have decided := new_iff .listed circularServices (by decide)
  have cycle := decided.2.2.1 ["b", "a"] rfl
  exact ⟨cycle, cycle.not_acyclic⟩

end DependencyGraph

end Monitord
