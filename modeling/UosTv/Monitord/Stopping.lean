import UosTv.Monitord.Starting
import UosTv.Monitord.StartupOrder

/-!
What `shutdown_all` does.

`StopOutcome` is what one turn does to a service. While a child is stopped nobody reads or
writes a record, so all that is known of the world at the start of the turn is known when
the signals are sent (`wp_stopChild`). Since the startup order is walked backwards, the
services that need a service, directly or not, have been stopped before it
(`topologicalSort_shutdown`).
-/

namespace Monitord

open DependencyOrder Effect Relation Rust
open Effect.Prog (forEach)

variable {rely : World → (o : Op) → Ans o → Prop} {G : World → Op → Prop} {w w' : World}
  {S : World → String → Prop} {name : String} {svc : ServiceRuntime} {child : ProcId}

/-! ### One service -/

/-- The record of a stopped service. -/
def ServiceRuntime.stopped (svc : ServiceRuntime) : ServiceRuntime :=
  { svc with status := .stopped, child := none }

/-- Stops a child: `K` is what is known as long as it is not reaped, `R` what is known of it
reaped or not. -/
theorem wp_stopChild [Permits G] (has : svc.child = some child) {pid : Option Nat}
    {K R : World → Prop} (start : K w) (pass : ∀ w choice, K w → K (w.pass choice))
    (signal : ∀ w, K w → ∀ p ∈ pid, ∀ signal, G w (.kill name p signal))
    (kept : ∀ w, K w → R w) (reaped : ∀ w, K w → R (w.reap child)) :
    wp act (contract rely G) (stopChild name pid svc)
      (fun svc' w' => svc' = svc.stopped ∧ ∃ v, R v ∧ w' = v.drop child) w := by
  have signalled : ∀ w sig, K w →
      wp act (contract rely G) (signalRecorded name sig pid) (fun _ w' => K w') w := by
    intro w sig holds
    cases pid with
    | none => exact holds
    | some p => exact wp_kill (signal w holds p rfl sig) fun choice => pass w choice holds
  simp only [stopChild, has, wp_bind]
  refine wp_mono (signalled w .sigterm start) fun _ w₁ holds₁ => wp_sleep fun choice _ => ?_
  have holds₂ := pass w₁ choice holds₁
  simp only [wp_dropHandle, wp_pure]
  refine wp_tryWait ?_ ?_ ?_
  · intro e choice' _
    exact ⟨rfl, _, kept _ (pass _ choice' holds₂), rfl⟩
  · intro choice' _
    simp only [finishStop, wp_bind]
    refine wp_mono (signalled _ .sigkill (pass _ choice' holds₂)) fun _ w₃ holds₃ => ?_
    exact wp_wait fun choice'' => ⟨rfl, _, reaped _ (pass _ choice'' holds₃), rfl⟩
  · intro code choice' _
    exact ⟨rfl, _, reaped _ (pass _ choice' holds₂), rfl⟩

/-- Only the clock and the processes have changed. -/
structure World.SameBooks (w w' : World) : Prop where
  services : w'.services = w.services
  failures : w'.failures = w.failures
  log : w'.log = w.log
  now : w.now ≤ w'.now

/-- What a turn of `shutdown_all` does to the service with record `svc`. -/
inductive StopOutcome (name : String) (svc : ServiceRuntime) (w : World) : World → Prop where
  | childless (childless : svc.child = none) : StopOutcome name svc w (w.put name svc)
  | stopped {w' : World} (active : svc.Active) (same : w.SameBooks w')
      (sound : w'.Sound (some name)) :
      StopOutcome name svc w (w'.put name svc.stopped)

theorem wp_stopService [Grants G S] (found : w.services.get name = some svc) (sound : w.Sound none) :
    wp act (contract rely G) (stopService name) (fun _ w' => StopOutcome name svc w w') w := by
  have agrees := sound.agrees name svc (by simp) found
  simp only [stopService, wp_bind, wp_getService, found, Option.bind_some]
  refine wp_updateService found ?_
  cases has : svc.child with
  | none =>
    simp only [stopChild, has, wp_pure]
    refine ⟨Grants.of_allowed ?_ not_false, .childless has⟩
    intro old isOld looped
    cases found.symm.trans isOld
    exact looped
  | some child =>
    obtain ⟨pid, recorded, owned⟩ := agrees.owned child has
    have active : svc.Active := agrees.active.mpr (by simp [has])
    refine wp_mono (wp_stopChild has
      (K := fun v => w.SameBooks v ∧ v.Sound (some name) ∧ v.Owns name child pid)
      (R := fun v => w.SameBooks v ∧ v.Sound (some name) ∧ v.Own name child)
      ⟨⟨rfl, rfl, rfl, le_rfl⟩, sound.begin name, owned⟩ ?_ ?_ ?_ ?_) ?_
    · rintro v choice ⟨same, sound, owned⟩
      exact ⟨⟨same.services, same.failures, same.log, same.now.trans (Nat.le_add_right _ _)⟩,
        sound.pass choice, owned.pass choice⟩
    · rintro v ⟨-, -, owned⟩ p isPid signal
      cases recorded.symm.trans isPid
      exact Grants.of_allowed ⟨child, owned⟩ not_false
    · rintro v ⟨same, sound, owned⟩
      exact ⟨same, sound, sound.own owned⟩
    · rintro v ⟨same, sound, owned⟩
      have own := sound.own owned
      exact ⟨⟨same.services, same.failures, same.log, same.now⟩, sound.reap own, own.reap⟩
    · rintro _ _ ⟨rfl, v, ⟨same, sound, own⟩, rfl⟩
      refine ⟨Grants.of_allowed ?_ not_false,
        .stopped active ⟨same.services, same.failures, same.log, same.now⟩ (sound.drop own)⟩
      intro old isOld looped
      have found' : (v.drop child).services.get name = some svc := by
        rw [← found, ← same.services]
        rfl
      cases found'.symm.trans isOld
      exact absurd looped (not_looped_of_active active)

namespace StopOutcome

theorem sound (outcome : StopOutcome name svc w w') (sound : w.Sound none)
    (found : w.services.get name = some svc) : w'.Sound none := by
  cases outcome with
  | childless =>
    exact (sound.begin name).put (sound.agrees name svc (by simp) found)
  | stopped _ same sound' =>
    exact sound'.put (World.agrees_childless rfl
      (by simp [ServiceRuntime.Active, ServiceRuntime.stopped]))

/-- Every service keeps its manifest and its crashes, and stays in its crash loop. -/
theorem record (outcome : StopOutcome name svc w w') (found : w.services.get name = some svc)
    {name' : String} {svc₁ : ServiceRuntime} (found₁ : w.services.get name' = some svc₁) :
    ∃ svc₂, w'.services.get name' = some svc₂ ∧ svc₂.manifest = svc₁.manifest ∧
      svc₂.crashTimestamps = svc₁.crashTimestamps ∧ (svc₁.Looped → svc₂.Looped) := by
  by_cases same : name' = name
  · subst same
    cases found.symm.trans found₁
    cases outcome with
    | childless => exact ⟨svc, World.get_put_self, rfl, rfl, id⟩
    | stopped active =>
      exact ⟨svc.stopped, World.get_put_self, rfl, rfl, fun looped =>
        absurd looped (not_looped_of_active active)⟩
  · cases outcome with
    | childless => exact ⟨svc₁, by rw [World.get_put_of_ne same, found₁], rfl, rfl, id⟩
    | stopped _ books =>
      exact ⟨svc₁, by rw [World.get_put_of_ne same, books.services, found₁], rfl, rfl, id⟩

/-- Nothing is logged. -/
theorem log (outcome : StopOutcome name svc w w') : w'.log = w.log ∧ w.now ≤ w'.now := by
  cases outcome with
  | childless => exact ⟨rfl, le_rfl⟩
  | stopped _ books => exact ⟨books.log, books.now⟩

end StopOutcome

/-- The rule of `shutdown_all`. -/
theorem wp_shutdownAll [Grants G S] {order : List String} (known : w.Known order) (sound : w.Sound none)
    (I : World → Prop) (start : I w)
    (step : ∀ name w svc w', I w → w.Sound none → w.services.get name = some svc →
      StopOutcome name svc w w' → I w') :
    wp act (contract rely G) (shutdownAll order) (fun _ w' => w'.Sound none ∧ I w') w := by
  refine wp_mono (wp_forEach (fun rest w => w.Sound none ∧ w.Known rest ∧ I w) ?_
    ⟨sound, fun name mem => known name (List.mem_reverse.mp mem), start⟩)
    fun _ w' post => ⟨post.1, post.2.2⟩
  rintro name rest w ⟨sound, known, holds⟩
  obtain ⟨⟨svc, found⟩, known⟩ := List.forall_mem_cons.mp known
  refine wp_mono (wp_stopService found sound) fun _ w' outcome => ?_
  refine ⟨outcome.sound sound found, fun name' mem => ?_, step name w svc w' holds sound found outcome⟩
  obtain ⟨svc', found'⟩ := known name' mem
  obtain ⟨svc₂, found₂, -⟩ := outcome.record found found'
  exact ⟨svc₂, found₂⟩

/-! ### The order -/

/-- The process of a service, if it has a record with one. -/
def World.childOf (w : World) (name : String) : Option ProcId :=
  (w.services.get name).bind (·.child)

/-- The operation is a signal to a service. -/
def Op.Signals (o : Op) (name : String) : Prop :=
  (∃ pid signal, o = .kill name pid signal) ∨ ∃ child, o = .startKill name child

/-- A service is only signalled when nothing that needs it has a process. -/
def DependentsStopped (services : List ServiceManifest) (w : World) (o : Op) : Prop :=
  ∀ name, o.Signals name → ∀ d, TransGen (Declares services) d name → w.childOf d = none

instance (services : List ServiceManifest) : Permits (DependentsStopped services) where
  free w o free := by
    rintro name (⟨pid, signal, rfl⟩ | ⟨child, rfl⟩)
    · cases free
    · cases free

/-- What depends on a service, directly or not, comes after it. -/
theorem mem_done_of_transGen {r : String → String → Prop} {order rest done : List String}
    (ordered : Ordered r order) (nodup : order.Nodup) (split : order.reverse = done ++ name :: rest)
    {d : String} (mem : d ∈ order) (needs : TransGen r d name) : d ∈ done := by
  have nodup' : (done ++ name :: rest).Nodup := split ▸ List.nodup_reverse.mpr nodup
  have once : name ∉ rest := (List.nodup_cons.mp (List.nodup_append.mp nodup').2.1).1
  have place : ∀ first later, name :: rest = first ++ d :: later →
      order = later.reverse ++ d :: (first.reverse ++ done.reverse) := by
    intro first later here
    rw [← List.reverse_reverse order, split, here]
    simp
  rw [← List.mem_reverse, split, List.mem_append, List.mem_cons] at mem
  rcases mem with mem | rfl | mem
  · exact mem
  · -- It would come before itself.
    have earlier := ordered.transGen (place [] rest rfl) needs
    exact absurd (List.mem_reverse.mp earlier) once
  · -- It would come before what it needs.
    obtain ⟨first, later, rfl⟩ := List.append_of_mem mem
    have earlier := ordered.transGen (place (name :: first) later rfl) needs
    exact absurd (List.mem_append_right _ (List.mem_cons_of_mem _ (List.mem_reverse.mp earlier))) once

theorem World.childOf_put (w : World) (name : String) (svc : ServiceRuntime) (name' : String) :
    (w.put name svc).childOf name' = if name' = name then svc.child else w.childOf name' := by
  rw [childOf, get_put]
  split
  · rfl
  · rfl

theorem dependentsStopped_write {services : List ServiceManifest} :
    DependentsStopped services w (.write name svc) := by
  rintro name (⟨_, _, ⟨⟩⟩ | ⟨_, ⟨⟩⟩)

/-- A service that nothing with a process needs may be stopped. It holds no process then,
and the records of the others are as before. -/
theorem wp_stopService_alone {services : List ServiceManifest}
    (alone : ∀ d, TransGen (Declares services) d name → w.childOf d = none) :
    wp act (contract rely (DependentsStopped services)) (stopService name) (fun _ w' =>
      w'.childOf name = none ∧ ∀ name' ≠ name, w'.childOf name' = w.childOf name') w := by
  simp only [stopService, wp_bind, wp_getService]
  cases found : w.services.get name with
  | none =>
    simp only [updateService, wp_bind, wp_acquire, wp_readService, found]
    exact wp_unwrap_none
  | some svc =>
    refine wp_updateService found ?_
    cases has : svc.child with
    | none =>
      simp only [stopChild, has, wp_pure, World.childOf_put]
      refine ⟨dependentsStopped_write, by simp, fun name' other => ?_⟩
      rw [if_neg other]
    | some child =>
      refine wp_mono (wp_stopChild has (K := fun v => v.services = w.services)
        (R := fun v => v.services = w.services) rfl (fun v choice same => same) ?_
        (fun v same => same) (fun v same => same)) ?_
      · rintro v same pid - signal name' (⟨_, _, ⟨⟩⟩ | ⟨_, ⟨⟩⟩) d needs
        rw [World.childOf, same]
        exact alone d needs
      · rintro _ _ ⟨rfl, v, same, rfl⟩
        refine ⟨dependentsStopped_write, ?_, fun name' other => ?_⟩
        · rw [World.childOf_put, if_pos rfl]
          rfl
        · rw [World.childOf_put, if_neg other, World.childOf, World.childOf, ← same]
          rfl

/-- `shutdown_all` along an order in which every service comes after what it needs. -/
theorem wp_shutdownAll_order {services : List ServiceManifest} {order : List String}
    (nodup : order.Nodup) (all : ∀ a b, Declares services a b → a ∈ order)
    (ordered : Ordered (Declares services) order) :
    wp act (contract rely (DependentsStopped services)) (shutdownAll order)
      (fun _ w' => ∀ name ∈ order, w'.childOf name = none) w := by
  refine wp_mono (wp_forEach (fun rest w => ∃ done, order.reverse = done ++ rest ∧
    ∀ name ∈ done, w.childOf name = none) ?_ ⟨[], rfl, by simp⟩) ?_
  · rintro name rest w ⟨done, split, stopped⟩
    refine wp_mono (wp_stopService_alone fun d needs => stopped d ?_) ?_
    · have mem : d ∈ order := by
        obtain ⟨b, first, -⟩ := TransGen.head'_iff.mp needs
        exact all d b first
      exact mem_done_of_transGen ordered nodup split mem needs
    · rintro _ w' ⟨here, others⟩
      refine ⟨done ++ [name], by rw [split, List.append_assoc]; rfl, fun name' mem => ?_⟩
      by_cases same : name' = name
      · rw [same, here]
      · rw [others name' same]
        exact stopped name' ((List.mem_append.mp mem).resolve_right (by simpa using same))
  · rintro _ w' ⟨done, split, stopped⟩ name mem
    refine stopped name ?_
    rw [List.append_nil] at split
    exact split ▸ List.mem_reverse.mpr mem

/-- **The startup order, and shutting down.** `topological_sort` of a graph that `new` has
built returns every service once, each after all its dependencies. `shutdown_all` along this
order, from any state, sends a signal to a service only when none of the services that depend
on it, directly or not, has a process, and leaves no service with one. -/
theorem topologicalSort_shutdown (built orders : Orders)
    {services : List ServiceManifest} {g : DependencyGraph} (distinct : (names services).Nodup)
    (ok : DependencyGraph.new built services = .ok g) :
    ∃ result, DependencyGraph.topologicalSort orders g = .ok result ∧ result.Perm services ∧
      Ordered (Declares services) (names result) ∧ ∀ w choices,
        (∀ e ∈ trace act (shutdownAll (names result)) w choices, ∀ name, e.op.Signals name →
          ∀ d, TransGen (Declares services) d name → e.before.childOf d = none) ∧
        (∀ w' rest, exec act (shutdownAll (names result)) w choices = some ((), w', rest) →
          ∀ svc ∈ services, w'.childOf svc.name = none) := by
  obtain ⟨result, sorted, perm, ordered⟩ :=
    DependencyGraph.topologicalSort_spec built distinct ok orders
  have same : (names result).Perm (names services) := perm.map _
  have all : ∀ a b, Declares services a b → a ∈ names result :=
    fun a b declares => same.mem_iff.mpr (DependencyGraph.names_of_declares declares)
  refine ⟨result, sorted, perm, ordered, fun w choices => ?_⟩
  have pre : wp act (contract (fun _ _ _ => True) (DependentsStopped services))
      (shutdownAll (names result)) (fun _ w' => ∀ name ∈ names result, w'.childOf name = none) w :=
    wp_shutdownAll_order (same.nodup_iff.mpr distinct) all ordered
  have relied : ∀ e ∈ trace act (shutdownAll (names result)) w choices, Event.Relied
      (contract (fun _ _ _ => True) (DependentsStopped services)) e :=
    fun _ _ _ _ _ => trivial
  constructor
  · exact wp_trace pre relied
  · intro w' rest run svc mem
    exact wp_exec pre run relied svc.name (same.mem_iff.mpr (List.mem_map_of_mem mem))

/-- Two services, the second of which needs the first. -/
def pairServices : List ServiceManifest :=
  [.default "a" "/bin/a", { ServiceManifest.default "b" "/bin/b" with dependencies := ["a"] }]

theorem topologicalSort_shutdown_pair : ∃ g result, DependencyGraph.new .listed pairServices = .ok g ∧
    DependencyGraph.topologicalSort .listed g = .ok result ∧ ∀ w choices,
      ∀ e ∈ trace act (shutdownAll (names result)) w choices, e.op.Signals "a" →
        e.before.childOf "b" = none := by
  obtain ⟨g, ok⟩ : ∃ g, DependencyGraph.new .listed pairServices = .ok g := ⟨_, rfl⟩
  obtain ⟨result, sorted, -, -, safe⟩ := topologicalSort_shutdown .listed .listed (by decide) ok
  refine ⟨g, result, ok, sorted, fun w choices e mem signals => ?_⟩
  refine (safe w choices).1 e mem "a" signals "b" (.single ⟨_, List.mem_cons_of_mem _ List.mem_cons_self, ?_⟩)
  exact ⟨rfl, List.mem_cons_self⟩

end Monitord
