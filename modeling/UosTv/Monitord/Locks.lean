import UosTv.Monitord.Launch

/-!
The locks of the two maps.

A `DashMap` is cut into shards with a lock each. Here the guards that a pass holds are kept
beside the world (`lockAct`), and a request is `Compatible` when it shares with every guard
that is held on its shard. `monitor_services` asks for the exclusive lock of a service under
the iterator's shared one as soon as a service is running or starting; `health_check_all`
asks for the exclusive lock of an entry that it holds already, at the third failure in a row
(`passes_lock_free_iff`). How keys are spread over shards does not matter.
-/

namespace Monitord

open Effect Rust
open Effect.Prog (forEach)

/-- A guard: the lock of a shard of a map. -/
structure Guard where
  map : MapName
  shard : Nat
  mode : Mode
deriving DecidableEq, Repr

/-- A request does not wait for a guard that is held. -/
def Compatible (held : List Guard) (request : Guard) : Prop :=
  ∀ guard ∈ held, guard.map = request.map → guard.shard = request.shard →
    guard.mode = .shared ∧ request.mode = .shared

/-- A world, and the guards that the running pass holds. -/
abbrev Locking := World × List Guard

variable (shard : MapName → String → Nat)

/-- The guard of the shard of a key. -/
def guardOf (map : MapName) (key : String) (mode : Mode) : Guard := ⟨map, shard map key, mode⟩

/-- The operations, with the guards. -/
def lockAct : Machine Op Ans Locking Choice := fun s o choice =>
  match o with
  | .acquire map key mode => some ((), (s.1, guardOf shard map key mode :: s.2))
  | .release map key mode => some ((), (s.1, s.2.erase (guardOf shard map key mode)))
  | o => (act s.1 o choice).map fun out => (out.1, (out.2, s.2))

/-- No request waits for a guard that the pass itself holds. -/
def NoWait (s : Locking) : Op → Prop
  | .acquire map key mode => Compatible s.2 (guardOf shard map key mode)
  | _ => True

/-- The contract in which the health checks of a service end as given. -/
def checksEnd (ends : String → Except String Unit → Prop) : Contract Op Ans Locking where
  rely _ o answer := match o with
    | .probe name _ _ => ends name answer
    | _ => True
  guarantee := NoWait shard

section Rules

variable {shard} {ends : String → Except String Unit → Prop} {s s' : Locking} {name : String}

theorem wp_step {o : Op} {answer : Ans o} {Q : Ans o → Locking → Prop}
    (answers : ∀ choice, lockAct shard s o choice = some (answer, s'))
    (unrelied : (checksEnd shard ends).rely s o answer) :
    wp (lockAct shard) (checksEnd shard ends) (call o) Q s ↔ NoWait shard s o ∧ Q answer s' := by
  refine Iff.trans Iff.rfl (and_congr_right fun _ => ⟨fun all => ?_, fun post => ?_⟩)
  · exact all default answer s' (answers default) unrelied
  · rintro choice answer' s'' done -
    rw [answers choice] at done
    cases done
    exact post

@[simp] theorem wp_acquire_lock {map : MapName} {mode : Mode} {Q : Unit → Locking → Prop} :
    wp (lockAct shard) (checksEnd shard ends) (acquire map name mode) Q s ↔
      Compatible s.2 (guardOf shard map name mode) ∧ Q () (s.1, guardOf shard map name mode :: s.2) :=
  wp_step (o := .acquire map name mode) (fun _ => rfl) trivial

@[simp] theorem wp_release_lock {map : MapName} {mode : Mode} {Q : Unit → Locking → Prop} :
    wp (lockAct shard) (checksEnd shard ends) (release map name mode) Q s ↔
      Q () (s.1, s.2.erase (guardOf shard map name mode)) :=
  (wp_step (o := .release map name mode) (fun _ => rfl) trivial).trans (and_iff_right trivial)

@[simp] theorem wp_readService_lock {Q : Option ServiceRuntime → Locking → Prop} :
    wp (lockAct shard) (checksEnd shard ends) (readService name) Q s ↔
      Q (s.1.services.get name) s :=
  (wp_step (o := .read name) (fun _ => rfl) trivial).trans (and_iff_right trivial)

@[simp] theorem wp_readFailures_lock {Q : Option Nat → Locking → Prop} :
    wp (lockAct shard) (checksEnd shard ends) (readFailures name) Q s ↔
      Q (s.1.failures.get name) s :=
  (wp_step (o := .readFailures name) (fun _ => rfl) trivial).trans (and_iff_right trivial)

@[simp] theorem wp_writeFailures_lock {count : Option Nat} {Q : Unit → Locking → Prop} :
    wp (lockAct shard) (checksEnd shard ends) (writeFailures name count) Q s ↔
      Q () (s.1.setFailures name count, s.2) :=
  (wp_step (o := .writeFailures name count) (fun _ => rfl) trivial).trans (and_iff_right trivial)

@[simp] theorem wp_logLine_lock {line : LogLine} {Q : Unit → Locking → Prop} :
    wp (lockAct shard) (checksEnd shard ends) (logLine line) Q s ↔
      Q () (s.1.note (.line line), s.2) :=
  (wp_step (o := .log line) (fun _ => rfl) trivial).trans (and_iff_right trivial)

@[simp] theorem wp_unwrap_lock {α : Type} {a : α} {Q : α → Locking → Prop} :
    wp (lockAct shard) (checksEnd shard ends) (unwrap (some a)) Q s ↔ Q a s := Iff.rfl

theorem wp_serviceNames_lock {Q : List String → Locking → Prop} :
    wp (lockAct shard) (checksEnd shard ends) serviceNames Q s ↔
      ∀ names, names.Perm s.1.services.keys → Q names s := by
  constructor
  · intro pre names perm
    exact pre.2 { order := names } names s (by simp [lockAct, act, perm]) trivial
  · refine fun post => ⟨trivial, ?_⟩
    rintro choice answer s' done -
    simp only [lockAct, act] at done
    split at done
    · cases done
      exact post _ ‹_›
    · cases done

theorem wp_probe_lock {target : Probe} {Q : Except String Unit → Locking → Prop} :
    wp (lockAct shard) (checksEnd shard ends) (probe name true target) Q s ↔
      ∀ choice : Choice, ends name (choice.failure.elim (.ok ()) .error) →
        Q (choice.failure.elim (.ok ()) .error) (s.1.pass choice, s.2) := by
  constructor
  · exact fun pre choice relied => pre.2 choice _ _ rfl relied
  · refine fun post => ⟨trivial, ?_⟩
    rintro choice answer s' ⟨⟩ relied
    exact post choice relied

end Rules

/-! ### `monitor_services` -/

section Monitor

variable {shard} {ends : String → Except String Unit → Prop} {w : World}

/-- When no service is active, the first loop only looks at the records. -/
theorem wp_collectRestarts_idle {names : List String}
    (idle : ∀ name ∈ names, ∃ svc, w.services.get name = some svc ∧ ¬ svc.Active) :
    wp (lockAct shard) (checksEnd shard ends) (collectRestarts names)
      (fun restarts s => restarts = [] ∧ s = (w, [])) (w, []) := by
  induction names with
  | nil => exact ⟨rfl, rfl⟩
  | cons name names ih =>
    obtain ⟨⟨svc, found, inactive⟩, idle⟩ := List.forall_mem_cons.mp idle
    have off : ¬ (svc.status = .running ∨ svc.status = .starting) := inactive
    simp only [collectRestarts, checkService, wp_bind, wp_acquire_lock, wp_readService_lock, found,
      wp_unwrap_lock, if_neg off, wp_pure, wp_release_lock, List.erase_cons_head]
    refine ⟨by simp [Compatible], wp_mono (ih idle) ?_⟩
    rintro _ _ ⟨rfl, rfl⟩
    exact ⟨rfl, rfl⟩

theorem wp_monitorServices_iff (busSocket : String) :
    wp (lockAct shard) (checksEnd shard ends) (monitorServices busSocket) (fun _ _ => True) (w, []) ↔
      ∀ name svc, w.services.get name = some svc → ¬ svc.Active := by
  simp only [monitorServices, wp_bind]
  rw [wp_serviceNames_lock]
  constructor
  · intro safe name svc found active
    -- The iteration may begin with the active service.
    have mem : name ∈ w.services.keys := HashMap.mem_keys.mpr ⟨svc, found⟩
    have on : svc.status = .running ∨ svc.status = .starting := active
    have first := safe _ (List.perm_cons_erase mem).symm
    simp only [collectRestarts, checkService, checkChild, wp_bind, wp_acquire_lock,
      wp_readService_lock, found, wp_unwrap_lock, if_pos on] at first
    obtain ⟨-, waits, -⟩ := first
    have both := waits _ List.mem_cons_self rfl rfl
    cases both.2
  · intro idle names perm
    refine wp_mono (wp_collectRestarts_idle fun name mem => ?_) ?_
    · obtain ⟨svc, found⟩ := HashMap.mem_keys.mp (perm.mem_iff.mp mem)
      exact ⟨svc, found, idle name svc found⟩
    · rintro _ _ ⟨rfl, rfl⟩
      trivial

end Monitor

/-! ### `health_check_all` -/

section Health

variable {shard} {health : String → Except String Unit} {w : World} {name : String}
  {svc : ServiceRuntime}

/-- The check of a service fails. -/
def ChecksFail (health : String → Except String Unit) (name : String) (svc : ServiceRuntime) : Prop :=
  ∃ method ∈ svc.healthMethod, probeOf method ≠ none ∧ health name ≠ .ok ()

/-- A turn in which nothing is restarted gives all guards back, and touches the failures of
no other service. -/
theorem wp_checkServiceHealth_lock (busSocket : String) (found : w.services.get name = some svc)
    (few : ChecksFail health name svc → w.failureCount name < maxHealthFailures) :
    wp (lockAct shard) (checksEnd shard fun name answer => answer = health name)
      (checkServiceHealth busSocket name) (fun _ s => s.2 = [] ∧ s.1.services = w.services ∧
        ∀ name' ≠ name, s.1.failures.get name' = w.failures.get name') (w, []) := by
  have apart : ∀ mode, Compatible [guardOf shard .services name .shared]
      (guardOf shard .failures name mode) := by
    intro mode guard mem same
    rw [List.mem_singleton.mp mem] at same
    cases same
  have kept : ∀ (v : World) count, v.services = w.services → v.failures = w.failures →
      (v.setFailures name count).services = w.services ∧
        ∀ name' ≠ name, (v.setFailures name count).failures.get name' = w.failures.get name' := by
    intro v count services failures
    refine ⟨by rw [World.setFailures_services, services], fun name' other => ?_⟩
    rw [World.get_failures_setFailures, if_neg other, failures]
  simp only [checkServiceHealth, wp_bind, wp_acquire_lock, wp_readService_lock, found, wp_unwrap_lock]
  refine ⟨by simp [Compatible], ?_⟩
  cases checked : svc.healthMethod with
  | none => simp
  | some method =>
    simp only [wp_bind, checkHealth]
    cases target : probeOf method with
    | none =>
      simp only [wp_pure, handleHealth, removeFailures, wp_bind, wp_acquire_lock, wp_writeFailures_lock,
        wp_release_lock, List.erase_cons_head]
      obtain ⟨services, failures⟩ := kept w none rfl rfl
      exact ⟨apart _, trivial, services, failures⟩
    | some t =>
      simp only
      rw [wp_probe_lock]
      intro choice ends
      rw [ends]
      cases ends : health name with
      | ok =>
        simp only [handleHealth, removeFailures, wp_bind, wp_acquire_lock, wp_writeFailures_lock,
          wp_release_lock, List.erase_cons_head]
        obtain ⟨services, failures⟩ := kept (w.pass choice) none rfl rfl
        exact ⟨apart _, trivial, services, failures⟩
      | error e =>
        have fails : ChecksFail health name svc := ⟨method, checked, by simp [target], by simp [ends]⟩
        have count : ((w.pass choice).failures.get name).elim 1 (· + 1) = w.failureCount name := rfl
        simp only [handleHealth, wp_bind, wp_acquire_lock, wp_readFailures_lock,
          wp_writeFailures_lock, count, if_neg (Nat.not_le.mpr (few fails)), wp_release_lock,
          List.erase_cons_head]
        obtain ⟨services, failures⟩ := kept (w.pass choice) (some (w.failureCount name)) rfl rfl
        exact ⟨apart _, trivial, services, failures⟩

theorem wp_healthCheckAll_iff (busSocket : String) :
    wp (lockAct shard) (checksEnd shard fun name answer => answer = health name)
        (healthCheckAll busSocket) (fun _ _ => True) (w, []) ↔
      ∀ name svc, w.services.get name = some svc → ChecksFail health name svc →
        w.failureCount name < maxHealthFailures := by
  simp only [healthCheckAll, wp_bind]
  rw [wp_serviceNames_lock]
  constructor
  · rintro safe name svc found ⟨method, checked, probes, fails⟩
    by_contra many
    -- The iteration may begin with the failing service.
    have mem : name ∈ w.services.keys := HashMap.mem_keys.mpr ⟨svc, found⟩
    have first := safe _ (List.perm_cons_erase mem).symm
    obtain ⟨target, probes⟩ := Option.ne_none_iff_exists'.mp probes
    obtain ⟨e, ends⟩ : ∃ e, health name = .error e := by
      cases ends : health name with
      | ok => exact absurd ends fails
      | error e => exact ⟨e, rfl⟩
    simp only [forEach, checkServiceHealth, wp_bind, wp_acquire_lock, wp_readService_lock, found,
      wp_unwrap_lock, Option.mem_def.mp checked, checkHealth, probes, wp_probe_lock] at first
    have restart := first.2 { failure := some e } ends.symm
    have count : ((w.pass { failure := some e }).failures.get name).elim 1 (· + 1) =
      w.failureCount name := rfl
    simp only [Option.elim_some, handleHealth, wp_bind, wp_acquire_lock, wp_readFailures_lock,
      wp_writeFailures_lock, count, if_pos (Nat.not_lt.mp many), restartUnhealthy, wp_logLine_lock,
      removeFailures] at restart
    obtain ⟨-, waits, -⟩ := restart
    have both := waits _ List.mem_cons_self rfl rfl
    cases both.1
  · intro few names perm
    have nodup : names.Nodup := perm.nodup_iff.mpr w.services.keys_nodup
    refine wp_mono (wp_forEach (fun rest s => rest.Nodup ∧ s.2 = [] ∧ s.1.services = w.services ∧
      ∀ name ∈ rest, name ∈ w.services.keys ∧ s.1.failures.get name = w.failures.get name) ?_
      ⟨nodup, rfl, rfl, fun name mem => ⟨perm.mem_iff.mp mem, rfl⟩⟩) fun _ _ _ => trivial
    rintro name rest ⟨v, _⟩ ⟨nodup, rfl, services, same⟩
    obtain ⟨new, nodup⟩ := List.nodup_cons.mp nodup
    obtain ⟨⟨mem, failures⟩, same⟩ := List.forall_mem_cons.mp same
    obtain ⟨svc, found⟩ := HashMap.mem_keys.mp mem
    have found' : v.services.get name = some svc := by rw [services, found]
    refine wp_mono (wp_checkServiceHealth_lock busSocket found' fun fails => ?_) ?_
    · rw [World.failureCount, failures]
      exact few name svc found fails
    · rintro _ s ⟨held, services', others⟩
      refine ⟨nodup, held, services'.trans services, fun name' mem' => ⟨(same name' mem').1, ?_⟩⟩
      rw [others name' (by rintro rfl; exact new mem')]
      exact (same name' mem').2

end Health

/-- **When the passes get through.** From any state, and however keys are spread over shards:
no step of `monitor_services` asks for a lock that its own pass holds iff no service is
running or starting when the pass begins; and for given outcomes of the health checks, no
step of `health_check_all` does iff no service whose check fails has two failures recorded. -/
theorem passes_lock_free_iff (busSocket : String) (w : World)
    (health : String → Except String Unit) :
    ((∀ choices, ∀ e ∈ trace (lockAct shard) (monitorServices busSocket) (w, []) choices,
        NoWait shard e.before e.op) ↔
      ∀ name svc, w.services.get name = some svc → ¬ svc.Active) ∧
    ((∀ choices, (∀ e ∈ trace (lockAct shard) (healthCheckAll busSocket) (w, []) choices,
          e.Relied (checksEnd shard fun name answer => answer = health name)) →
        ∀ e ∈ trace (lockAct shard) (healthCheckAll busSocket) (w, []) choices,
          NoWait shard e.before e.op) ↔
      ∀ name svc, w.services.get name = some svc → ChecksFail health name svc →
        w.failureCount name < maxHealthFailures) := by
  constructor
  · have rule : wp (lockAct shard) (checksEnd shard fun _ _ => True) (monitorServices busSocket)
        (fun _ _ => True) (w, []) ↔ _ := wp_monitorServices_iff busSocket
    rw [← rule]
    constructor
    · exact fun safe => wp_of_trace fun choices _ => safe choices
    · intro pre choices
      refine wp_trace pre fun e _ answer _ => ?_
      cases e with
      | mk before op answered => cases op <;> trivial
  · have rule : wp (lockAct shard) (checksEnd shard fun name answer => answer = health name)
        (healthCheckAll busSocket) (fun _ _ => True) (w, []) ↔ _ := wp_healthCheckAll_iff busSocket
    rw [← rule]
    exact ⟨fun safe => wp_of_trace safe, fun pre choices relied => wp_trace pre relied⟩

/-- The first pass after the boot of one service waits for itself. -/
theorem monitor_pass_waits : ∃ w, exec act (supervise "" soloLaunch.order []) soloLaunch.start
      (List.replicate 14 { pid := 5 }) = some (.ok (), w, []) ∧
    ∃ e ∈ trace (lockAct fun _ _ => 0) (monitorServices "") (w, []) [{ order := ["a"] }, {}, {}],
      ¬ NoWait (fun _ _ => 0) e.before e.op := by
  refine ⟨_, rfl, _, List.mem_of_getLast? rfl, fun noWait => ?_⟩
  cases (noWait _ List.mem_cons_self rfl rfl).2

end Monitord
