import UosTv.Monitord.HealthChecks
import UosTv.Monitord.Monitoring
import UosTv.Monitord.Stopping

/-!
Runs of the supervisor.

A `Launch` is what `main` hands to the supervisor: manifests with distinct names
(`load_from_dir` refuses others), their dependency graph, and the startup order. It carries
the proofs that the graph and the order are those that the code computes. `wp_supervise` is
the rule of a whole run: an invariant that the boot establishes and every pass keeps.
-/

namespace Monitord

open DependencyOrder Effect Rust

/-- What `main` starts the supervisor with. -/
structure Launch where
  services : List ServiceManifest
  distinct : (names services).Nodup
  built : Orders
  graph : DependencyGraph
  isGraph : DependencyGraph.new built services = .ok graph
  orders : Orders
  sorted : List ServiceManifest
  isSorted : DependencyGraph.topologicalSort orders graph = .ok sorted

/-- The launch that a list of manifests leads to, if `main` gets that far. -/
def launch? (built orders : Orders) (services : List ServiceManifest) : Option Launch :=
  if distinct : (names services).Nodup then
    match isGraph : DependencyGraph.new built services with
    | .error _ => none
    | .ok graph =>
      match isSorted : DependencyGraph.topologicalSort orders graph with
      | .error _ => none
      | .ok sorted => some ⟨services, distinct, built, graph, isGraph, orders, sorted, isSorted⟩
  else none

/-- One service, restarted when it fails. -/
def soloServices : List ServiceManifest := [.default "a" "/bin/a"]

def soloLaunch : Launch := (launch? .listed .listed soloServices).get (by decide)

def pairLaunch : Launch := (launch? .listed .listed pairServices).get (by decide)

namespace Launch

variable (l : Launch)

/-- `startup_order`. -/
def order : List String := names l.sorted

/-- The supervisor before the boot. -/
def start : World := .init l.services

theorem sorted_spec : l.sorted.Perm l.services ∧ Ordered (Declares l.services) l.order := by
  obtain ⟨result, isResult, perm, ordered⟩ :=
    DependencyGraph.topologicalSort_spec l.built l.distinct l.isGraph l.orders
  cases isResult.symm.trans l.isSorted
  exact ⟨perm, ordered⟩

theorem order_perm : l.order.Perm (names l.services) := l.sorted_spec.1.map _

theorem order_nodup : l.order.Nodup := l.order_perm.nodup_iff.mpr l.distinct

theorem get_start {name : String} {svc : ServiceRuntime} : l.start.services.get name = some svc ↔
    ∃ manifest ∈ l.services, manifest.name = name ∧ svc = .new manifest :=
  World.get_init l.distinct

theorem sound_start : l.start.Sound none := World.sound_init l.distinct

theorem pending_start : ∀ name ∈ l.order, l.start.Pending name := by
  intro name mem
  obtain ⟨manifest, mem, named⟩ := List.mem_map.mp (l.order_perm.mem_iff.mp mem)
  exact ⟨manifest, l.get_start.mpr ⟨manifest, mem, named, rfl⟩⟩

end Launch

/-- Every manifest has its record. -/
def World.Carries (w : World) (services : List ServiceManifest) : Prop :=
  ∀ manifest ∈ services, ∃ svc, w.services.get manifest.name = some svc ∧ svc.manifest = manifest

theorem World.Carries.of_manifest {w w' : World} {services : List ServiceManifest}
    (carries : w.Carries services)
    (kept : ∀ name svc₁, w.services.get name = some svc₁ →
      ∃ svc₂, w'.services.get name = some svc₂ ∧ svc₂.manifest = svc₁.manifest) :
    w'.Carries services := by
  intro manifest mem
  obtain ⟨svc₁, found₁, rfl⟩ := carries manifest mem
  exact kept _ svc₁ found₁

theorem World.Carries.known {w : World} {l : Launch} (carries : w.Carries l.services) :
    w.Known l.order := by
  intro name inside
  obtain ⟨manifest, mem, rfl⟩ := List.mem_map.mp (l.order_perm.mem_iff.mp inside)
  obtain ⟨svc, found, -⟩ := carries manifest mem
  exact ⟨svc, found⟩

theorem Launch.carries_start (l : Launch) : l.start.Carries l.services :=
  fun manifest mem => ⟨.new manifest, l.get_start.mpr ⟨manifest, mem, rfl, rfl⟩, rfl⟩

section Runs

variable {rely : World → (o : Op) → Ans o → Prop} {G : World → Op → Prop} {w : World} {l : Launch}
  {busSocket : String}

/-- The rule of a run: the boot establishes an invariant and the passes keep it. -/
theorem wp_supervise (passes : List Pass) (I : World → Prop)
    (booted : wp act (contract rely G) (boot busSocket l.order)
      (fun result w => result = .ok () → I w) l.start)
    (step : ∀ pass w, I w →
      wp act (contract rely G) (runPass busSocket l.order pass) (fun _ w' => I w') w) :
    wp act (contract rely G) (supervise busSocket l.order passes)
      (fun result w => result = .ok () → I w) l.start := by
  simp only [supervise, wp_bind]
  refine wp_mono booted fun result w holds => ?_
  cases result with
  | error e => rintro ⟨⟩
  | ok =>
    simp only [wp_bind, wp_pure]
    refine wp_mono (wp_forEach (fun _ w => I w) (fun pass _ w => step pass w) (holds rfl)) ?_
    exact fun _ w' holds' _ => holds'

/-- The boot leaves every manifest its record. -/
theorem wp_boot_carries : wp act (relying rely) (boot busSocket l.order)
    (fun _ w => w.Sound none ∧ w.Carries l.services) l.start := by
  refine wp_mono (wp_boot l.order_nodup l.pending_start l.sound_start
    (fun _ w => w.Carries l.services) (fun w => w.Carries l.services) l.carries_start
    (fun _ _ _ _ _ _ => trivial) ?_) ?_
  · intro name rest w manifest result w' carries _ found outcome
    have carries' := carries.of_manifest fun name svc₁ found₁ =>
      outcome.manifest found (not_looped_new _) found₁
    exact ⟨fun _ => carries', fun _ _ _ => carries'⟩
  · rintro result w ⟨sound, ⟨-, carries⟩ | ⟨-, carries⟩⟩
    · exact ⟨sound, carries⟩
    · exact ⟨sound, carries⟩

/-- Every pass leaves every manifest its record. -/
theorem wp_runPass_carries (pass : Pass) (sound : w.Sound none) (carries : w.Carries l.services) :
    wp act (relying rely) (runPass busSocket l.order pass)
      (fun _ w' => w'.Sound none ∧ w'.Carries l.services) w := by
  cases pass with
  | monitor =>
    refine wp_monitorServices sound (fun _ _ w => w.Carries l.services)
      (fun _ w => w.Carries l.services) (fun _ _ _ => carries) ?_ (fun _ _ holds _ _ => holds)
      (fun _ _ _ _ _ _ => trivial) ?_
    · intro name rest acc w svc here w' carries _ found outcome
      exact carries.of_manifest fun name svc₁ found₁ => outcome.manifest found found₁
    · intro r rest w svc result w' carries _ found _ notLooped outcome
      exact carries.of_manifest fun name svc₁ found₁ => outcome.manifest found notLooped found₁
  | health =>
    refine wp_healthCheckAll sound (fun _ w => w.Carries l.services) (fun _ _ => carries)
      (fun _ _ _ _ _ _ _ _ _ _ _ _ => trivial) ?_
    intro name rest w svc w' carries _ found outcome
    exact carries.of_manifest fun name svc₁ found₁ => outcome.manifest found found₁
  | shutdown =>
    refine wp_shutdownAll carries.known sound (fun w => w.Carries l.services) carries ?_
    intro name w svc w' carries _ found outcome
    refine carries.of_manifest fun name svc₁ found₁ => ?_
    obtain ⟨svc₂, found₂, kept, -⟩ := outcome.record found found₁
    exact ⟨svc₂, found₂, kept⟩

/-- In every run, every manifest keeps its record and the records agree with the processes. -/
theorem wp_supervise_sound (passes : List Pass) :
    wp act (relying rely) (supervise busSocket l.order passes)
      (fun result w => result = .ok () → w.Sound none ∧ w.Carries l.services) l.start := by
  refine wp_supervise passes _ (wp_mono wp_boot_carries fun _ w holds _ => holds) ?_
  rintro pass w ⟨sound, carries⟩
  exact wp_runPass_carries pass sound carries

end Runs

end Monitord
