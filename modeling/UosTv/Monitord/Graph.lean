import UosTv.Monitord.Manifest
import UosTv.Rust.Collections

/-!
The dependency graph (`graph.rs`).

`new` builds the three tables and checks them for cycles by a coloured depth-first
search; `topologicalSort` is Kahn's algorithm. A loop over a hash container goes through
it in an order of the container's own choosing: `Orders` gives the order of each loop, and
every theorem is for all of them. What would be a panic in the source is the result
`Fault.panic`. The depth of the search and the turns of the queue loop are bounded by
fuel, and running out of it is the result `Fault.fuel`.
-/

namespace Monitord

open Rust

/-- `GraphError`. -/
inductive GraphError where
  | circularDependency (cycle : List String)
  | missingDependency (service dep : String)
deriving DecidableEq, Repr

/-- How a function of this module can end without a result. -/
inductive Fault where
  | error (e : GraphError)
  | panic
  | fuel
deriving DecidableEq, Repr

structure DependencyGraph where
  services : HashMap String ServiceManifest
  dependents : HashMap String (HashSet String)
  dependencies : HashMap String (HashSet String)

/-- The iteration orders of the loops: over `services.keys()` when cycles are looked for,
over the `in_degree` map, and over the two sets of each service. -/
structure Orders where
  services : Iter String
  inDegree : Iter String
  dependencies : String → Iter String
  dependents : String → Iter String

/-- The order in which the elements are listed, in every loop. -/
def Orders.listed : Orders := ⟨.listed, .listed, fun _ => .listed, fun _ => .listed⟩

namespace DependencyGraph

/-! ### Construction -/

/-- The two edge tables while they are built. -/
structure Edges where
  deps : HashMap String (HashSet String)
  dependents : HashMap String (HashSet String)

/-- Gives a service its two empty sets. -/
def initEdges (edges : Edges) (svc : ServiceManifest) : Edges where
  deps := edges.deps.upsert svc.name .new id
  dependents := edges.dependents.upsert svc.name .new id

/-- One dependency of one service. -/
def addEdge (services : HashMap String ServiceManifest) (svc : ServiceManifest) (edges : Edges)
    (dep : String) : Except Fault Edges :=
  if services.get dep = none then .error (.error (.missingDependency svc.name dep))
  else .ok
    { deps := edges.deps.upsert svc.name .new fun set => set.insert dep
      dependents := edges.dependents.upsert dep .new fun set => set.insert svc.name }

/-- The dependencies of one service. -/
def addEdges (services : HashMap String ServiceManifest) (edges : Edges) (svc : ServiceManifest) :
    Except Fault Edges :=
  svc.dependencies.foldlM (addEdge services svc) edges

/-- The tables that `new` fills before it looks for cycles. -/
def build (services : List ServiceManifest) : Except Fault DependencyGraph := do
  let serviceMap := HashMap.collect (services.map fun svc => (svc.name, svc))
  let edges ← services.foldlM (addEdges serviceMap) (services.foldl initEdges ⟨∅, ∅⟩)
  pure ⟨serviceMap, edges.dependents, edges.deps⟩

/-! ### Cycle detection -/

/-- What the search carries: the colours (0 unvisited, 1 in progress, 2 done) and the path. -/
structure Search where
  color : HashMap String Nat
  path : List String

/-- One dependency of the node at the end of the path; `dfs` is the recursive call. -/
def visitDep (dfs : String → Search → Except Fault Search) (search : Search) (dep : String) :
    Except Fault Search :=
  match search.color.get dep with
  | none => .error .panic
  | some depColor =>
    if depColor = 1 then
      match search.path.idxOf? dep with
      | none => .error .panic
      | some cycleStart => .error (.error (.circularDependency (search.path.drop cycleStart)))
    else if depColor = 0 then dfs dep search
    else .ok search

/-- The dependencies of a node, in the order in which its set yields them. -/
def depList (orders : Orders) (g : DependencyGraph) (node : String) : List String :=
  match g.dependencies.get node with
  | none => []
  | some depSet => (orders.dependencies node).run depSet.elems

/-- `dfs_cycle_detect`. -/
def dfsCycleDetect (orders : Orders) (g : DependencyGraph) :
    Nat → String → Search → Except Fault Search
  | 0, _, _ => .error .fuel
  | fuel + 1, node, search => do
    let search : Search := ⟨search.color.insert node 1, search.path ++ [node]⟩
    let search ← (depList orders g node).foldlM (visitDep (dfsCycleDetect orders g fuel)) search
    pure ⟨search.color.insert node 2, search.path.dropLast⟩

/-- One turn of the loop of `verify_no_cycles`. -/
def verifyFrom (orders : Orders) (g : DependencyGraph) (search : Search) (name : String) :
    Except Fault Search :=
  match search.color.get name with
  | none => .error .panic
  | some nameColor =>
    if nameColor = 0 then dfsCycleDetect orders g g.services.len name search else .ok search

/-- `verify_no_cycles`. -/
def verifyNoCycles (orders : Orders) (g : DependencyGraph) : Except Fault Unit := do
  let color := HashMap.collect (g.services.keys.map fun k => (k, 0))
  let _ ← (orders.services.run g.services.keys).foldlM (verifyFrom orders g) ⟨color, []⟩
  pure ()

/-- `DependencyGraph::new`. -/
def new (orders : Orders) (services : List ServiceManifest) : Except Fault DependencyGraph := do
  let graph ← build services
  verifyNoCycles orders graph
  pure graph

/-! ### Topological sort -/

/-- What the queue loop carries. -/
structure Sorting where
  result : List ServiceManifest
  inDegree : HashMap String Nat
  queue : List String

/-- One dependent of the service that has been taken from the queue. -/
def releaseDependent (sorting : Sorting) (dependent : String) : Except Fault Sorting :=
  match sorting.inDegree.get dependent with
  | none => .error .panic
  | some 0 => .error .panic
  | some (deg + 1) =>
    .ok { sorting with
      inDegree := sorting.inDegree.insert dependent deg
      queue := if deg = 0 then sorting.queue ++ [dependent] else sorting.queue }

/-- The dependents of a service, in the order in which its set yields them. -/
def dependentList (orders : Orders) (g : DependencyGraph) (name : String) : List String :=
  match g.dependents.get name with
  | none => []
  | some depSet => (orders.dependents name).run depSet.elems

/-- The `while` loop of `topological_sort`. -/
def sortLoop (orders : Orders) (g : DependencyGraph) : Nat → Sorting → Except Fault Sorting
  | fuel, sorting =>
    match sorting.queue with
    | [] => .ok sorting
    | name :: queue =>
      match fuel with
      | 0 => .error .fuel
      | fuel + 1 =>
        match g.services.get name with
        | none => .error .panic
        | some svc => do
          let sorting : Sorting := { sorting with result := sorting.result ++ [svc], queue }
          sortLoop orders g fuel
            (← (dependentList orders g name).foldlM releaseDependent sorting)

/-- The in-degree of a service at the start: how many dependencies it has. -/
def degree (g : DependencyGraph) (name : String) : Nat :=
  match g.dependencies.get name with
  | none => 0
  | some depSet => depSet.elems.length

/-- `topological_sort`. -/
def topologicalSort (orders : Orders) (g : DependencyGraph) :
    Except Fault (List ServiceManifest) := do
  let inDegree := HashMap.collect (g.services.keys.map fun k => (k, g.degree k))
  let queue := (orders.inDegree.run inDegree.keys).filter fun name => inDegree.get name = some 0
  let sorting ← sortLoop orders g g.services.len ⟨[], inDegree, queue⟩
  pure sorting.result

end DependencyGraph

end Monitord
