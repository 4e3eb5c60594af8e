import UosTv.Monitord.Starting

/-!
What a pass of `health_check_all` does.

`HealthOutcome` is what one turn does to a service: nothing is to be checked, the check
succeeds, its failure is counted, or it is the third failure and the service is killed and
started again. `wp_healthCheckAll` is the rule of the pass.
-/

namespace Monitord

open Effect Rust
open Effect.Prog (forEach)

variable {rely : World → (o : Op) → Ans o → Prop} {w w' : World} {name : String}
  {svc : ServiceRuntime} {G : World → Op → Prop} {S : World → String → Prop}

/-- The number of failures with the one that has just been found. -/
def World.failureCount (w : World) (name : String) : Nat := (w.failures.get name).elim 1 (· + 1)

/-- The record of a service that has been killed for its health. -/
def ServiceRuntime.unhealthy (svc : ServiceRuntime) (e : String) : ServiceRuntime :=
  { svc with status := .failed ("health: " ++ e), child := none, pid := none }

theorem not_looped_unhealthy (svc : ServiceRuntime) (e : String) : ¬ (svc.unhealthy e).Looped := by
  rintro ⟨reason, looped⟩
  cases looped

/-- The world in which a service is about to be killed: its failure has been counted, the
count forgotten, and the failure logged. -/
def World.condemned (w : World) (name : String) (count : Nat) : World :=
  ((w.setFailures name (some count)).note (.line (.healthFailed name))).setFailures name none

/-- The check of the service with record `svc` has failed for the third time with reason `e`;
the service has been killed, and its delay is over. -/
inductive Killed (rely : World → (o : Op) → Ans o → Prop) (name : String)
    (svc : ServiceRuntime) (w : World) (e : String) : World → Prop where
  | killed {method : String} {target : Probe} {child : ProcId} {w₁ w₂ w₃ : World}
      (checked : svc.healthMethod = some method) (probes : probeOf method = some target)
      (answered : rely w (.probe name true target) (.error e)) (later : w.Later w₁)
      (many : maxHealthFailures ≤ w.failureCount name) (has : svc.child = some child)
      (killed : (w₁.condemned name (w.failureCount name)).Later w₂)
      (slept : ((((w₂.drop child).put name { svc with child := none, pid := none })).put name
        (svc.unhealthy e)).Later w₃)
      (delay : w₂.now + millis svc.manifest.restartDelayMs ≤ w₃.now) : Killed rely name svc w e w₃

/-- What a turn of `health_check_all` does to the service with record `svc`. -/
inductive HealthOutcome (rely : World → (o : Op) → Ans o → Prop) (busSocket name : String)
    (svc : ServiceRuntime) (w : World) : World → Prop where
  | unchecked (unchecked : svc.healthMethod = none) : HealthOutcome rely busSocket name svc w w
  | healthy {method : String} {w' : World} (checked : svc.healthMethod = some method)
      (later : w.Later w') : HealthOutcome rely busSocket name svc w (w'.setFailures name none)
  | counted {method e : String} {target : Probe} {w' : World}
      (checked : svc.healthMethod = some method) (probes : probeOf method = some target)
      (answered : rely w (.probe name true target) (.error e)) (later : w.Later w')
      (few : w.failureCount name < maxHealthFailures) :
      HealthOutcome rely busSocket name svc w (w'.setFailures name (some (w.failureCount name)))
  | restarted {e : String} {w₃ w' : World} {result : Except String Unit}
      (killed : Killed rely name svc w e w₃)
      (start : StartOutcome rely busSocket name (svc.unhealthy e) w₃ result w') :
      HealthOutcome rely busSocket name svc w w'

/-- `kill_service`, of a service with a process. -/
theorem wp_killService [Grants G S] {child : ProcId} {pid : Nat} (found : w.services.get name = some svc)
    (has : svc.child = some child) (recorded : svc.pid = some pid) (owned : w.Owns name child pid)
    (notLooped : ¬ svc.Looped) :
    wp act (contract rely G) (killService name) (fun _ w' => ∃ v, w.Later v ∧
      w' = (v.drop child).put name { svc with child := none, pid := none }) w := by
  simp only [killService, wp_bind, wp_getService, found, Option.bind_some, recorded, signalPid]
  refine wp_kill (Grants.of_allowed ⟨child, owned⟩ not_false) fun choice => wp_sleep fun choice' _ => ?_
  have later₁ : w.Later (w.pass choice) := World.Later.refl.pass choice
  have later₂ := later₁.pass choice'
  refine wp_kill (Grants.of_allowed ⟨child, later₂.owns owned⟩ not_false) fun choice'' => ?_
  have later₃ := later₂.pass choice''
  have found₃ : (((w.pass choice).pass choice').pass choice'').services.get name = some svc := by
    rw [later₃.services, found]
  simp only [wp_acquire, wp_bind, wp_readService, found₃, has, killChild]
  refine wp_startKill (Grants.of_allowed ⟨pid, later₃.owns owned⟩ not_false) fun choice''' => ?_
  simp only [wp_dropHandle, wp_writeService, wp_release]
  refine ⟨Grants.of_allowed ?_ not_false, _, later₃.pass choice''', rfl⟩
  intro old isOld looped
  cases found₃.symm.trans isOld
  exact absurd looped notLooped

@[simp] theorem wp_removeFailures [Permits G] {Q : Unit → World → Prop} :
    wp act (contract rely G) (removeFailures name) Q w ↔ Q () (w.setFailures name none) := by
  simp [removeFailures]

theorem World.setFailures_services (count : Option Nat) :
    (w.setFailures name count).services = w.services := by
  cases count with
  | none => rfl
  | some count => rfl

theorem World.get_failures_setFailures (count : Option Nat) (name' : String) :
    (w.setFailures name count).failures.get name' =
      if name' = name then count else w.failures.get name' := by
  cases count with
  | none => exact HashMap.get_remove _ _ _
  | some count => exact HashMap.get_insert _ _ _ _

/-- The restart of a service whose check has failed for the third time. -/
theorem wp_restartUnhealthy [Grants G S] {busSocket e : String} {method : String} {target : Probe}
    {w₁ : World} (found : w.services.get name = some svc) (agrees : w.Agrees name svc)
    (checked : svc.healthMethod = some method) (probes : probeOf method = some target)
    (answered : rely w (.probe name true target) (.error e)) (later : w.Later w₁)
    (many : maxHealthFailures ≤ w.failureCount name)
    (spawns : ∀ w₃ w', Killed rely name svc w e w₃ → w₃.Later w' → S w' name) :
    wp act (contract rely G) (restartUnhealthy busSocket name e)
      (fun _ w' => HealthOutcome rely busSocket name svc w w')
      (w₁.setFailures name (some (w.failureCount name))) := by
  have active : svc.Active := by
    unfold ServiceRuntime.healthMethod at checked
    split at checked
    · exact .inl ‹_›
    · cases checked
  have notLooped := not_looped_of_active active
  obtain ⟨child, has⟩ := Option.ne_none_iff_exists'.mp (agrees.active.mp active)
  obtain ⟨pid, recorded, owned⟩ := agrees.owned child has
  simp only [restartUnhealthy, wp_bind, wp_logLine, wp_removeFailures]
  rintro -
  have found₁ : (w₁.condemned name (w.failureCount name)).services.get name = some svc := by
    rw [← found, ← later.services]
    rfl
  refine wp_mono (wp_killService found₁ has recorded (later.owns owned) notLooped) ?_
  rintro ⟨⟩ _ ⟨w₂, killed, rfl⟩
  simp only [wp_acquire, wp_readService, World.get_put_self, wp_unwrap, wp_writeService, wp_release]
  refine ⟨Grants.of_allowed ?_ not_false, wp_sleep fun choice slept => ?_⟩
  · intro old isOld looped
    cases World.get_put_self.symm.trans isOld
    exact absurd looped notLooped
  · have found₂ : (((((w₂.drop child).put name { svc with child := none, pid := none })).put name
        (svc.unhealthy e)).pass choice).services.get name = some (svc.unhealthy e) :=
      World.get_put_self
    have dead : Killed rely name svc w e _ := .killed checked probes answered later many has killed
      (World.Later.refl.pass choice) (Nat.add_le_add_left slept _)
    apply wp_mono (wp_startService busSocket found₂ rfl (not_looped_unhealthy svc e)
      fun w' => spawns _ w' dead)
    exact fun result w' start => .restarted dead start

theorem wp_checkServiceHealth [Grants G S] (busSocket : String) (found : w.services.get name = some svc)
    (agrees : w.Agrees name svc)
    (spawns : ∀ e w₃ w', Killed rely name svc w e w₃ → w₃.Later w' → S w' name) :
    wp act (contract rely G) (checkServiceHealth busSocket name)
      (fun _ w' => HealthOutcome rely busSocket name svc w w') w := by
  simp only [checkServiceHealth, wp_bind, wp_acquire, wp_readService, found, wp_unwrap]
  split
  · simp only [wp_release]
    exact .unchecked ‹_›
  · rename_i method checked
    simp only [wp_bind]
    refine wp_checkHealth (fun unprobed => ?_) fun target result choice probes relied => ?_
    · simp only [handleHealth, wp_removeFailures, wp_release]
      exact .healthy checked .refl
    · have later : w.Later (w.pass choice) := World.Later.refl.pass choice
      cases result with
      | ok =>
        simp only [handleHealth, wp_removeFailures, wp_release]
        exact .healthy checked later
      | error e =>
        have count : ((w.pass choice).failures.get name).elim 1 (· + 1) = w.failureCount name := by
          rw [later.failures]
          rfl
        simp only [handleHealth, wp_bind, wp_acquire, wp_readFailures, wp_writeFailures, count]
        split
        · rename_i many
          simp only [wp_bind, wp_release]
          refine wp_mono (wp_restartUnhealthy found agrees checked probes relied later many
            (spawns e)) ?_
          exact fun _ w' outcome => outcome
        · rename_i few
          simp only [wp_release]
          exact .counted checked probes relied later (Nat.not_le.mp few)

/-- What a service that has been killed for its health leaves behind. -/
theorem Killed.books {e : String} (killed : Killed rely name svc w e w') : w.now ≤ w'.now ∧
    (∃ t, w'.log = (t, .line (.healthFailed name)) :: w.log) ∧
    w'.services.get name = some (svc.unhealthy e) ∧
    ∀ name' ≠ name, w'.services.get name' = w.services.get name' := by
  obtain @⟨_, _, child, w₁, w₂, _, -, -, -, later, -, -, killed, slept, -⟩ := killed
  have log : w'.log = (w₁.now, .line (.healthFailed name)) :: w₁.log := slept.log.trans killed.log
  refine ⟨later.now.trans (killed.now.trans slept.now), ⟨w₁.now, ?_⟩, ?_, ?_⟩
  · rw [log, later.log]
  · rw [slept.services, World.get_put_self]
  · intro name' other
    rw [slept.services, World.get_put_of_ne other, World.get_put_of_ne other]
    change w₂.services.get name' = _
    rw [killed.services, ← later.services]
    rfl

namespace HealthOutcome

variable {busSocket : String}

theorem others (outcome : HealthOutcome rely busSocket name svc w w') {name' : String}
    (other : name' ≠ name) : w'.services.get name' = w.services.get name' := by
  cases outcome with
  | unchecked => rfl
  | healthy _ later => rw [World.setFailures_services, later.services]
  | counted _ _ _ later => rw [World.setFailures_services, later.services]
  | restarted killed start =>
    obtain ⟨-, -, -, others⟩ := killed.books
    rw [start.others other, others name' other]

theorem sound (outcome : HealthOutcome rely busSocket name svc w w') (sound : w.Sound none)
    (found : w.services.get name = some svc) : w'.Sound none := by
  cases outcome with
  | unchecked => exact sound
  | healthy _ later => exact (later.sound sound).setFailures name none
  | counted _ _ _ later => exact (later.sound sound).setFailures name _
  | restarted killed start =>
    obtain ⟨-, -, -, later, -, has, killed, slept, -⟩ := killed
    obtain ⟨pid, -, owned⟩ := (sound.agrees name svc (by simp) found).owned _ has
    have sound₂ := killed.sound
      ((((later.sound sound).setFailures name _).note _).setFailures name none)
    have own := sound₂.own (killed.owns (later.owns owned))
    have dropped := ((sound₂.begin name).drop own).putBusy { svc with child := none, pid := none }
    refine start.sound (slept.sound (dropped.put ?_)) rfl
    exact World.agrees_childless rfl (by simp [ServiceRuntime.Active, ServiceRuntime.unhealthy])

/-- Every service keeps its manifest. -/
theorem manifest (outcome : HealthOutcome rely busSocket name svc w w')
    (found : w.services.get name = some svc) {name' : String} {svc₁ : ServiceRuntime}
    (found₁ : w.services.get name' = some svc₁) :
    ∃ svc₂, w'.services.get name' = some svc₂ ∧ svc₂.manifest = svc₁.manifest := by
  by_cases same : name' = name
  · subst same
    cases found.symm.trans found₁
    cases outcome with
    | unchecked => exact ⟨svc, found, rfl⟩
    | healthy _ later => exact ⟨svc, by rw [World.setFailures_services, later.services, found], rfl⟩
    | counted _ _ _ later =>
      exact ⟨svc, by rw [World.setFailures_services, later.services, found], rfl⟩
    | restarted killed start =>
      obtain ⟨-, -, record, -⟩ := killed.books
      obtain ⟨svc₂, found₂, kept, -⟩ := start.record record (not_looped_unhealthy svc _)
      exact ⟨svc₂, found₂, kept⟩
  · exact ⟨svc₁, by rw [outcome.others same, found₁], rfl⟩

end HealthOutcome

/-- The rule of `health_check_all`. -/
theorem wp_healthCheckAll [Grants G S] {busSocket : String} (sound : w.Sound none)
    (I : List String → World → Prop)
    (start : ∀ names, names.Perm w.services.keys → I names w)
    (spawns : ∀ name rest w svc e w₃ w', I (name :: rest) w → w.Sound none →
      w.services.get name = some svc → Killed rely name svc w e w₃ → w₃.Later w' → S w' name)
    (step : ∀ name rest w svc w', I (name :: rest) w → w.Sound none →
      w.services.get name = some svc → HealthOutcome rely busSocket name svc w w' → I rest w') :
    wp act (contract rely G) (healthCheckAll busSocket) (fun _ w' => w'.Sound none ∧ I [] w') w := by
  simp only [healthCheckAll, wp_bind]
  rw [wp_serviceNames]
  intro names perm _
  have known : w.Known names := fun name mem =>
    HashMap.mem_keys.mp (perm.mem_iff.mp mem)
  refine wp_mono (wp_forEach (fun rest w => w.Sound none ∧ w.Known rest ∧ I rest w) ?_
    ⟨sound, known, start names perm⟩) fun _ w' post => ⟨post.1, post.2.2⟩
  rintro name rest w ⟨sound, known, holds⟩
  obtain ⟨⟨svc, found⟩, known⟩ := List.forall_mem_cons.mp known
  refine wp_mono (wp_checkServiceHealth busSocket found (sound.agrees name svc (by simp) found)
    fun e w₃ w' => spawns name rest w svc e w₃ w' holds sound found) ?_
  intro _ w' outcome
  refine ⟨outcome.sound sound found, fun name' mem => ?_,
    step name rest w svc w' holds sound found outcome⟩
  obtain ⟨svc', found'⟩ := known name' mem
  obtain ⟨svc₂, found₂, -⟩ := outcome.manifest found found'
  exact ⟨svc₂, found₂⟩

end Monitord
