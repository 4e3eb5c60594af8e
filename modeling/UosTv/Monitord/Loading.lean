import UosTv.Monitord.StartupOrder
import UosTv.Rust.Result
import UosTv.Rust.Text

/-!
From a directory of manifests to the startup order (`load_from_dir`, and the first half of `main`).

Whether `monitord` gets as far as its boot depends on what the files say and not on the order in
which the directory lists them: each manifest can be read and names a service and a binary, no name
comes twice, and the dependencies are among the services and acyclic (`plan_iff`).
-/

namespace Monitord

open DependencyOrder Rust

/-! ### The program -/

/-- `ManifestError`. -/
inductive ManifestError where
  | io (e : String)
  | yaml (e : String)
  | invalid (name reason : String)
  | duplicate (name : String)

/-- An entry of the directory, and what `read_to_string` gives for it. -/
structure DirEntry where
  name : String
  content : Except String String

/-- What there is at the path of the directory. -/
structure Directory where
  found : Bool
  /-- `read_dir`. Each item of it may be an error. -/
  entries : Except String (List (Except String DirEntry))

/-- `Path::extension` of the name of a file. -/
def extension (fileName : String) : Option String :=
  match (split fileName '.').reverse with
  | [] => none
  | [_] => none
  | [_, ""] => none
  | ext :: _ => some ext

def DirEntry.isManifest (file : DirEntry) : Bool :=
  extension file.name = some "yaml" || extension file.name = some "yml"

/-- The variables of the loop. -/
structure Loading where
  seen : HashSet String
  services : List ServiceManifest

section Program

variable (parse : String → Except String ServiceManifest) (dir : String)

/-- The checks of one manifest. -/
def validate (path : String) (manifest : ServiceManifest) : Except ManifestError Unit :=
  if manifest.name = "" then .error (.invalid path "name is required")
  else if manifest.binary = "" then .error (.invalid manifest.name "binary path is required")
  else .ok ()

/-- The body of the loop. `parse` is `serde_yaml::from_str`. -/
def loadEntry (loading : Loading) (entry : Except String DirEntry) :
    Except ManifestError Loading := do
  let file ← entry.mapError .io
  if file.isManifest then
    let content ← file.content.mapError .io
    let manifest ← (parse content).mapError .yaml
    validate (join dir file.name) manifest
    if manifest.name ∈ loading.seen then .error (.duplicate manifest.name)
    else .ok ⟨loading.seen.insert manifest.name, loading.services ++ [manifest]⟩
  else .ok loading

/-- `load_from_dir`. -/
def loadFromDir (d : Directory) : Except ManifestError (List ServiceManifest) :=
  if d.found then do
    let entries ← d.entries.mapError .io
    let loading ← entries.foldlM (loadEntry parse dir) ⟨.new, []⟩
    pure loading.services
  else .error (.io ("Directory not found: " ++ dir))

/-- Why `main` ends before the boot. -/
inductive Refusal where
  | manifests (e : ManifestError)
  | graph (fault : Fault)

/-- What `main` does before the boot: the services in their startup order. The iteration orders
are those of the check for cycles and of the sort. -/
def plan (checked sorted : Orders) (d : Directory) : Except Refusal (List ServiceManifest) := do
  let services ← (loadFromDir parse dir d).mapError .manifests
  let graph ← (DependencyGraph.new checked services).mapError .graph
  (DependencyGraph.topologicalSort sorted graph).mapError .graph

end Program

/-! ### Manifests -/

section Files

variable (parse : String → Except String ServiceManifest)

/-- The manifest in a file, if it is taken for one. -/
def DirEntry.manifest? (file : DirEntry) : Option ServiceManifest :=
  if file.isManifest then file.content.toOption.bind fun content => (parse content).toOption
  else none

/-- The manifests in some files. -/
def manifests (files : List DirEntry) : List ServiceManifest := files.filterMap (·.manifest? parse)

/-- A file is no manifest, or it holds one that names a service and a binary. -/
def DirEntry.Sound (file : DirEntry) : Prop :=
  file.isManifest = true → ∃ m, file.manifest? parse = some m ∧ m.name ≠ "" ∧ m.binary ≠ ""

end Files

section Loop

variable {parse : String → Except String ServiceManifest} {dir : String} {loading loaded : Loading}
  {file : DirEntry} {m : ServiceManifest} {entries : List (Except String DirEntry)}
  {services : List ServiceManifest}

theorem validate_eq_ok {path : String} :
    validate path m = .ok () ↔ m.name ≠ "" ∧ m.binary ≠ "" := by
  unfold validate
  split_ifs with name binary
  · simp [name]
  · simp [binary]
  · simp [name, binary]

theorem toOption_eq_some {α ε : Type} {result : Except ε α} {a : α} :
    result.toOption = some a ↔ result = .ok a := by
  cases result with
  | error e => simp [Except.toOption]
  | ok b => simp [Except.toOption]

theorem manifest?_eq_some : file.manifest? parse = some m ↔
    file.isManifest = true ∧ ∃ content, file.content = .ok content ∧ parse content = .ok m := by
  simp only [DirEntry.manifest?, Option.ite_none_right_eq_some, Option.bind_eq_some_iff,
    toOption_eq_some]

/-- What a turn of the loop does with a manifest. -/
theorem loadEntry_manifest (isManifest : file.isManifest = true) :
    loadEntry parse dir loading (.ok file) = .ok loaded ↔ ∃ m, file.manifest? parse = some m ∧
      (m.name ≠ "" ∧ m.binary ≠ "") ∧ m.name ∉ loading.seen ∧
        loaded = ⟨loading.seen.insert m.name, loading.services ++ [m]⟩ := by
  have dup : ∀ m : ServiceManifest, (if m.name ∈ loading.seen then .error (.duplicate m.name)
      else .ok ⟨loading.seen.insert m.name, loading.services ++ [m]⟩ :
        Except ManifestError Loading) = .ok loaded ↔ m.name ∉ loading.seen ∧
          loaded = ⟨loading.seen.insert m.name, loading.services ++ [m]⟩ := by
    intro m
    split_ifs with twice
    · simp [twice]
    · simp [twice, eq_comm]
  simp only [loadEntry, mapError_eq_ok, bind_eq_ok, Except.ok.injEq, exists_eq_left', isManifest,
    if_true, dup, manifest?_eq_some, true_and]
  constructor
  · rintro ⟨content, read, m, parsed, _, valid, fresh, done⟩
    exact ⟨m, ⟨content, read, parsed⟩, validate_eq_ok.mp valid, fresh, done⟩
  · rintro ⟨m, ⟨content, read, parsed⟩, valid, fresh, done⟩
    exact ⟨content, read, m, parsed, (), validate_eq_ok.mpr valid, fresh, done⟩

/-- Other files are passed over. -/
theorem loadEntry_other (isManifest : file.isManifest = false) :
    loadEntry parse dir loading (.ok file) = .ok loading := by
  simp only [loadEntry, Except.mapError, ok_bind, isManifest, Bool.false_eq_true, if_false]

/-- The set of the loop holds the names of the services that it has found. -/
def Loading.Tracks (loading : Loading) : Prop :=
  ∀ name, name ∈ loading.seen ↔ name ∈ names loading.services

theorem Loading.Tracks.push (tracks : loading.Tracks) :
    Loading.Tracks ⟨loading.seen.insert m.name, loading.services ++ [m]⟩ := by
  intro name
  change name ∈ loading.seen.insert m.name ↔ _
  rw [HashSet.mem_insert, tracks name, names, names, List.map_append, List.mem_append,
    List.map_singleton, List.mem_singleton, or_comm]

theorem manifests_other {files : List DirEntry} (isManifest : file.isManifest = false) :
    manifests parse (file :: files) = manifests parse files := by
  have none : file.manifest? parse = none := by
    rw [DirEntry.manifest?, isManifest]
    rfl
  rw [manifests, List.filterMap_cons_none none, manifests]

theorem manifests_manifest {files : List DirEntry} (found : file.manifest? parse = some m) :
    manifests parse (file :: files) = m :: manifests parse files := by
  rw [manifests, List.filterMap_cons_some found, manifests]

theorem nodup_names_concat : (names (services ++ [m])).Nodup ↔
    m.name ∉ names services ∧ (names services).Nodup := by
  rw [DependencyGraph.names_concat, ← List.concat_eq_append]
  exact List.nodup_concat _ _

/-- What holds of files that are listed as they are holds behind the first of them. -/
theorem exists_files_cons {P : List DirEntry → Prop} :
    (∃ files : List DirEntry, Except.ok file :: entries = files.map .ok ∧ P files) ↔
      ∃ files : List DirEntry, entries = files.map .ok ∧ P (file :: files) := by
  constructor
  · rintro ⟨files, split, holds⟩
    cases files with
    | nil => cases split
    | cons first files =>
      obtain ⟨same, rest⟩ := List.cons.inj split
      cases same
      exact ⟨files, rest, holds⟩
  · rintro ⟨files, rfl, holds⟩
    exact ⟨file :: files, rfl, holds⟩

/-- The loop succeeds on files that are sound, if no name comes twice. -/
theorem foldlM_loadEntry_iff (tracks : loading.Tracks) (nodup : (names loading.services).Nodup) :
    (∃ loaded, entries.foldlM (loadEntry parse dir) loading = .ok loaded ∧
        loaded.services = services) ↔
      ∃ files : List DirEntry, entries = files.map .ok ∧ (∀ file ∈ files, file.Sound parse) ∧
        (names services).Nodup ∧ services = loading.services ++ manifests parse files := by
  induction entries generalizing loading with
  | nil =>
    constructor
    · rintro ⟨loaded, ⟨⟩, rfl⟩
      exact ⟨[], rfl, List.forall_mem_nil _, nodup, (List.append_nil _).symm⟩
    · rintro ⟨files, none, -, -, rfl⟩
      obtain rfl := List.map_eq_nil_iff.mp none.symm
      exact ⟨loading, rfl, (List.append_nil _).symm⟩
  | cons entry entries ih =>
    cases entry with
    | error e =>
      constructor
      · rintro ⟨loaded, failed, -⟩
        cases failed
      · rintro ⟨files, split, -⟩
        cases files with
        | nil => cases split
        | cons file files => cases split
    | ok file =>
      rw [exists_files_cons, List.foldlM_cons]
      cases isManifest : file.isManifest with
      | false =>
        have sound : file.Sound parse := fun is => absurd is (ne_true_of_eq_false isManifest)
        rw [loadEntry_other isManifest, ok_bind, ih tracks nodup]
        simp only [List.forall_mem_cons, sound, true_and, manifests_other isManifest]
      | true =>
        simp only [bind_eq_ok, loadEntry_manifest isManifest]
        constructor
        · rintro ⟨loaded, ⟨_, ⟨m, found, valid, fresh, rfl⟩, rest⟩, done⟩
          have nodup' := nodup_names_concat.mpr ⟨(tracks _).not.mp fresh, nodup⟩
          obtain ⟨files, split, sound, distinct, all⟩ :=
            (ih tracks.push nodup').mp ⟨loaded, rest, done⟩
          refine ⟨files, split, List.forall_mem_cons.mpr ⟨fun _ => ⟨m, found, valid⟩, sound⟩,
            distinct, ?_⟩
          rw [all, manifests_manifest found, List.append_assoc, List.singleton_append]
        · rintro ⟨files, split, sound, distinct, all⟩
          obtain ⟨here, sound⟩ := List.forall_mem_cons.mp sound
          obtain ⟨m, found, valid⟩ := here isManifest
          have parts : services = loading.services ++ [m] ++ manifests parse files := by
            rw [all, manifests_manifest found, List.append_assoc, List.singleton_append]
          have nodup' : (names (loading.services ++ [m])).Nodup := by
            rw [parts, names, List.map_append] at distinct
            exact distinct.of_append_left
          have fresh := (tracks _).not.mpr (nodup_names_concat.mp nodup').1
          obtain ⟨loaded, rest, done⟩ :=
            (ih tracks.push nodup').mpr ⟨files, split, sound, distinct, parts⟩
          exact ⟨loaded, ⟨_, ⟨m, found, valid, fresh, rfl⟩, rest⟩, done⟩

theorem loadFromDir_iff {d : Directory} : loadFromDir parse dir d = .ok services ↔
    d.found = true ∧ ∃ files : List DirEntry, d.entries = .ok (files.map .ok) ∧
      (∀ file ∈ files, file.Sound parse) ∧ (names services).Nodup ∧
        services = manifests parse files := by
  have loop (entries : List (Except String DirEntry)) :
      (∃ loaded, entries.foldlM (loadEntry parse dir) ⟨.new, []⟩ = .ok loaded ∧
          loaded.services = services) ↔
        ∃ files : List DirEntry, entries = files.map .ok ∧ (∀ file ∈ files, file.Sound parse) ∧
          (names services).Nodup ∧ services = manifests parse files :=
    foldlM_loadEntry_iff (fun _ => ⟨by rintro ⟨⟩, by rintro ⟨⟩⟩) List.nodup_nil
  unfold loadFromDir
  split
  · rename_i found
    simp only [bind_eq_ok, mapError_eq_ok, pure_eq_ok, loop, found, true_and]
    constructor
    · rintro ⟨entries, listed, files, rfl, loads⟩
      exact ⟨files, listed, loads⟩
    · rintro ⟨files, listed, loads⟩
      exact ⟨_, listed, files, rfl, loads⟩
  · rename_i missing
    constructor
    · rintro ⟨⟩
    · rintro ⟨found, -⟩
      exact absurd found missing

end Loop

/-! ### The startup order -/

section Plan

variable {parse : String → Except String ServiceManifest} {dir : String} {checked sorted : Orders}
  {d : Directory} {files files' : List DirEntry} {services services' started : List ServiceManifest}

/-- The files hold manifests that `monitord` can start. -/
structure Startable (parse : String → Except String ServiceManifest) (files : List DirEntry) :
    Prop where
  sound : ∀ file ∈ files, file.Sound parse
  distinct : (names (manifests parse files)).Nodup
  closed : ∀ a b, Declares (manifests parse files) a b → b ∈ names (manifests parse files)
  acyclic : Acyclic (Declares (manifests parse files))

theorem declares_perm (perm : services'.Perm services) : Declares services' = Declares services := by
  funext a b
  simp only [Declares, perm.mem_iff]

theorem Startable.of_perm (startable : Startable parse files) (perm : files'.Perm files) :
    Startable parse files' := by
  have same : (manifests parse files').Perm (manifests parse files) := perm.filterMap _
  have sameNames : (names (manifests parse files')).Perm (names (manifests parse files)) :=
    same.map _
  refine ⟨fun file mem => startable.sound file (perm.mem_iff.mp mem),
    sameNames.nodup_iff.mpr startable.distinct, ?_, ?_⟩
  · intro a b declared
    rw [declares_perm same] at declared
    exact sameNames.mem_iff.mpr (startable.closed a b declared)
  · rw [declares_perm same]
    exact startable.acyclic

theorem plan_eq_ok : plan parse dir checked sorted d = .ok started ↔
    ∃ services, loadFromDir parse dir d = .ok services ∧
      ∃ graph, DependencyGraph.new checked services = .ok graph ∧
        DependencyGraph.topologicalSort sorted graph = .ok started := by
  simp only [plan, bind_eq_ok, mapError_eq_ok]

/-- Files that can be started are, each service after those that it needs. -/
theorem exists_plan (found : d.found = true) (listed : d.entries = .ok (files.map .ok))
    (startable : Startable parse files) :
    ∃ started, plan parse dir checked sorted d = .ok started ∧
      started.Perm (manifests parse files) ∧
      Ordered (Declares (manifests parse files)) (names started) := by
  have loaded : loadFromDir parse dir d = .ok (manifests parse files) :=
    loadFromDir_iff.mpr ⟨found, files, listed, startable.sound, startable.distinct, rfl⟩
  rcases DependencyGraph.new_cases checked startable.distinct with ⟨graph, built, -⟩ |
    ⟨a, b, -, declared, missing⟩ | ⟨c, -, cycle, -⟩
  · obtain ⟨started, done, perm, ordered⟩ :=
      DependencyGraph.topologicalSort_spec checked startable.distinct built sorted
    exact ⟨started, plan_eq_ok.mpr ⟨_, loaded, graph, built, done⟩, perm, ordered⟩
  · exact absurd (startable.closed a b declared) missing
  · exact absurd startable.acyclic cycle.not_acyclic

/-- Nothing else is. -/
theorem startable_of_plan (planned : plan parse dir checked sorted d = .ok started) :
    d.found = true ∧ ∃ files, d.entries = .ok (files.map .ok) ∧ Startable parse files := by
  obtain ⟨services, loaded, graph, built, -⟩ := plan_eq_ok.mp planned
  obtain ⟨found, files, listed, sound, distinct, rfl⟩ := loadFromDir_iff.mp loaded
  rcases DependencyGraph.new_cases checked distinct with ⟨graph', -, tables, order, nodup, ordered, all⟩ |
    ⟨a, b, failed, -⟩ | ⟨c, failed, -⟩
  · exact ⟨found, files, listed, sound, distinct, tables.closed, ordered.acyclic nodup fun a b needs =>
      all a (DependencyGraph.names_of_declares needs)⟩
  · rw [failed] at built
    cases built
  · rw [failed] at built
    cases built

end Plan

/-- `main` gets to the boot iff the directory is there and can be listed, and what it lists is
`Startable`. The startup order is one of all manifests, in which each service comes after those
that it needs. In which order the directory lists the files and the tables are gone through makes
no difference to any of this. -/
theorem plan_iff (parse : String → Except String ServiceManifest) (dir : String)
    (checked sorted : Orders) (d : Directory) :
    ((∃ started, plan parse dir checked sorted d = .ok started) ↔
        d.found = true ∧ ∃ files, d.entries = .ok (files.map .ok) ∧ Startable parse files) ∧
      ∀ (files files' : List DirEntry) started, d.entries = .ok (files.map .ok) → files'.Perm files →
        plan parse dir checked sorted d = .ok started →
          started.Perm (manifests parse files) ∧
          Ordered (Declares (manifests parse files)) (names started) ∧
          ∀ checked' sorted', ∃ started',
            plan parse dir checked' sorted' { d with entries := .ok (files'.map .ok) } =
              .ok started' ∧ started'.Perm started := by
  have same {files files' : List DirEntry} (listed : d.entries = .ok (files.map .ok))
      (listed' : d.entries = .ok (files'.map .ok)) : files' = files := by
    rw [listed'] at listed
    refine List.map_injective_iff.mpr (fun a b same => Except.ok.inj same) (Except.ok.inj listed)
  refine ⟨⟨fun ⟨started, planned⟩ => startable_of_plan planned, fun ⟨found, files, listed, able⟩ => ?_⟩,
    fun files files' started listed perm planned => ?_⟩
  · obtain ⟨started, planned, -⟩ := exists_plan found listed able
    exact ⟨started, planned⟩
  · obtain ⟨found, files₁, listed₁, able⟩ := startable_of_plan planned
    obtain rfl := same listed listed₁
    obtain ⟨started₁, planned₁, all, ordered⟩ := exists_plan found listed able
    rw [planned] at planned₁
    cases planned₁
    refine ⟨all, ordered, fun checked' sorted' => ?_⟩
    have found' : ({ d with entries := .ok (files'.map .ok) } : Directory).found = true := found
    obtain ⟨started', planned', all', -⟩ := exists_plan found' rfl (able.of_perm perm)
    exact ⟨started', planned', all'.trans ((perm.filterMap _).trans all.symm)⟩

end Monitord
