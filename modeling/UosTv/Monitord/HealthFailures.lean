import UosTv.Lib.Recording
import UosTv.Monitord.RestartPolicy

/-!
Which failures a kill for health is answered by.

`checks` are the periodic checks made on the current process of a service. The recorded failures
of a service are at most those in a row that its current process has, as long as a process is
spawned only when none are recorded. `health_check_all` sees to that itself; a restart by
`monitor_services` keeps the failures of the process that has exited. So a service is killed after
three failures of the current process in every run in which spawns find no failures
(`killed_after_three_failures`).
-/

namespace Monitord

open Effect Rust
open Effect.Prog (forEach)

/-! ### The checks of the current process -/

/-- The results of the checks made on the current process of the service, the last one first. -/
def checks (name : String) : List (Event Op Ans World) → List (Except String Unit)
  | [] => []
  | ⟨_, .spawn name' _, some (.ok _)⟩ :: past => if name' = name then [] else checks name past
  | ⟨_, .probe name' true _, some result⟩ :: past =>
    if name' = name then result :: checks name past else checks name past
  | _ :: past => checks name past

/-- How many of them have failed in a row. -/
def failing (name : String) (past : List (Event Op Ans World)) : Nat :=
  ((checks name past).takeWhile fun result => !result.isOk).length

/-- The last three checks of the current process have failed. -/
def ThreeFailed (name : String) (past : List (Event Op Ans World)) : Prop :=
  ∃ e₁ e₂ e₃ older, checks name past = .error e₁ :: .error e₂ :: .error e₃ :: older

/-- The operation is part of a kill of the service. -/
def Op.Kills (name : String) : Op → Prop
  | .kill name' _ _ | .startKill name' _ => name' = name
  | _ => False

/-- The service of which a process has been spawned. -/
def Op.started : (o : Op) → Ans o → Option String
  | .spawn name _, .ok _ => some name
  | _, _ => none

/-- A process is spawned when no failures of the service are recorded. -/
def afresh (w : World) (o : Op) (answer : Ans o) : Prop :=
  ∀ name ∈ o.started answer, w.failures.get name = none

instance (w : World) (o : Op) (answer : Ans o) : Decidable (afresh w o answer) :=
  inferInstanceAs (Decidable (∀ name ∈ o.started answer, w.failures.get name = none))

/-! ### What the parts of a pass issue -/

/-- The operation makes no periodic check and does not touch the recorded failures. It kills only
the service that is being killed, if there is one, and else may spawn. -/
def Op.During (victim : Option String) : Op → Prop
  | .kill name _ _ | .startKill name _ => victim = some name
  | .spawn _ _ => victim = none
  | .probe _ periodic _ => periodic = false
  | .writeFailures _ _ => False
  | _ => True

section Issues

variable {victim : Option String} {name busSocket : String}

theorem issues_call {o : Op} (during : o.During victim) : Issues (Op.During victim) (call o) :=
  ⟨during, fun _ => trivial⟩

theorem issues_unwrap {α : Type} (a : Option α) : Issues (Op.During victim) (unwrap a) := by
  cases a with
  | none => exact ⟨trivial, fun answer => answer.elim⟩
  | some a => trivial

theorem issues_getService : Issues (Op.During victim) (getService name) :=
  .bind (issues_call trivial) fun _ => .bind (issues_call trivial) fun _ =>
    .bind (issues_call trivial) fun _ => trivial

theorem issues_updateService {update : ServiceRuntime → M ServiceRuntime}
    (body : ∀ svc, Issues (Op.During victim) (update svc)) :
    Issues (Op.During victim) (updateService name update) :=
  .bind (issues_call trivial) fun _ => .bind (issues_call trivial) fun svc =>
    .bind (issues_unwrap svc) fun svc => .bind (body svc) fun _ =>
    .bind (issues_call trivial) fun _ => issues_call trivial

theorem issues_dropChild (child : Option ProcId) : Issues (Op.During victim) (dropChild child) := by
  cases child with
  | none => trivial
  | some child => exact issues_call trivial

theorem issues_waitLoop (start turns : Nat) :
    Issues (Op.During victim) (waitLoop name start turns) := by
  induction turns with
  | zero => trivial
  | succ turns ih =>
    refine .bind (issues_call trivial) fun now => ?_
    split
    · trivial
    · refine .bind (.bind issues_getService fun _ => trivial) fun status => ?_
      split
      · trivial
      · trivial
      · trivial
      · exact .bind (issues_call trivial) fun _ => ih

theorem issues_waitAll (deps : List String) : Issues (Op.During victim) (waitAll deps) := by
  induction deps with
  | nil => trivial
  | cons dep deps ih =>
    refine .bind (.bind (issues_call trivial) fun start => issues_waitLoop start 302) fun result => ?_
    cases result with
    | error e => trivial
    | ok => exact ih

theorem issues_checkHealth (method : String) :
    Issues (Op.During victim) (checkHealth false name method) := by
  unfold checkHealth
  split
  · trivial
  · exact issues_call rfl

theorem issues_healthLoop (method : String) (deadline cutoff turns : Nat) :
    Issues (Op.During victim) (healthLoop name method deadline cutoff turns) := by
  induction turns with
  | zero => trivial
  | succ turns ih =>
    refine .bind (issues_call trivial) fun now => ?_
    split
    · trivial
    · refine .bind (issues_checkHealth method) fun result => ?_
      cases result with
      | ok => trivial
      | error e =>
        refine .bind (issues_call trivial) fun now => .bind (issues_call trivial) fun _ =>
          .bind (issues_call trivial) fun now => ?_
        split
        · trivial
        · exact ih

theorem issues_waitForHealth (manifest : ServiceManifest) :
    Issues (Op.During victim) (waitForHealth manifest name) := by
  unfold waitForHealth
  split
  · trivial
  · exact .bind (issues_call trivial) fun now => issues_healthLoop _ _ _ 32

theorem issues_afterSpawn (manifest : ServiceManifest) (child : ProcId) (pid : Nat) :
    Issues (Op.During victim) (afterSpawn name manifest child pid) := by
  refine .bind (issues_updateService fun svc => ?_) fun _ => .bind (issues_waitForHealth manifest)
    fun _ => .bind (issues_updateService fun _ => trivial) fun _ => trivial
  exact .bind (issues_dropChild svc.child) fun _ => .bind (issues_call trivial) fun _ => trivial

theorem issues_startService : Issues (Op.During none) (startService busSocket name) := by
  refine .bind issues_getService fun svc => ?_
  cases svc with
  | none => trivial
  | some svc =>
    refine .bind (issues_waitAll svc.manifest.dependencies) fun result => ?_
    cases result with
    | error e => trivial
    | ok =>
      refine .bind (issues_call trivial) fun exist => ?_
      split
      · refine .bind (issues_call rfl) fun spawned => ?_
        cases spawned with
        | error e => trivial
        | ok out => exact issues_afterSpawn _ _ _
      · exact .bind (issues_updateService fun _ => trivial) fun _ => trivial

theorem issues_boot (order : List String) : Issues (Op.During none) (boot busSocket order) := by
  induction order with
  | nil => trivial
  | cons name order ih =>
    refine .bind issues_startService fun result => ?_
    cases result with
    | ok => exact ih
    | error e =>
      refine .bind issues_getService fun svc => .bind (issues_unwrap svc) fun svc => ?_
      split
      · trivial
      · exact ih

theorem issues_handleTryWait (svc : ServiceRuntime) (child : ProcId)
    (found : Except String (Option (Option Int))) :
    Issues (Op.During none) (handleTryWait name svc child found) := by
  unfold handleTryWait
  split
  · exact .bind (issues_call trivial) fun _ => .bind (issues_dropChild _) fun _ =>
      .bind (issues_call trivial) fun _ => .bind (issues_call trivial) fun _ => trivial
  · trivial
  · trivial

theorem issues_checkChild : Issues (Op.During none) (checkChild name) := by
  refine .bind (issues_call trivial) fun _ => .bind (issues_call trivial) fun svc =>
    .bind (issues_unwrap svc) fun svc => ?_
  cases svc.child with
  | none => exact ⟨trivial, fun _ => trivial⟩
  | some child =>
    exact .bind (issues_call trivial) fun found => .bind (issues_handleTryWait svc child found)
      fun _ => ⟨trivial, fun _ => trivial⟩

theorem issues_checkService : Issues (Op.During none) (checkService name) := by
  refine .bind (issues_call trivial) fun _ => .bind (issues_call trivial) fun entry =>
    .bind (issues_unwrap entry) fun entry => ?_
  dsimp only
  split
  · exact .bind issues_checkChild fun _ => ⟨trivial, fun _ => trivial⟩
  · exact ⟨trivial, fun _ => trivial⟩

theorem issues_collectRestarts (names : List String) :
    Issues (Op.During none) (collectRestarts names) := by
  induction names with
  | nil => trivial
  | cons name names ih => exact .bind issues_checkService fun here => .bind ih fun later => trivial

theorem issues_monitorServices : Issues (Op.During none) (monitorServices busSocket) := by
  refine .bind (issues_call trivial) fun names => .bind (issues_collectRestarts names) fun restarts => ?_
  apply Issues.forEach
  intro restart
  exact .bind issues_startService fun _ => trivial

theorem issues_killService : Issues (Op.During (some name)) (killService name) := by
  refine .bind issues_getService fun svc => .bind ?_ fun _ => ?_
  · cases svc.bind (·.pid) with
    | none => trivial
    | some pid =>
      exact .bind (issues_call rfl) fun _ => .bind (issues_call trivial) fun _ => issues_call rfl
  · refine .bind (issues_call trivial) fun _ => .bind (issues_call trivial) fun svc => ?_
    cases svc with
    | none => exact issues_call trivial
    | some svc =>
      refine .bind ?_ fun _ => .bind (issues_call trivial) fun _ => issues_call trivial
      cases svc.child with
      | none => trivial
      | some child => exact .bind (issues_call rfl) fun _ => issues_call trivial

end Issues

/-! ### What is recorded, against the checks -/

section Counts

variable {victim : Option String} {name busSocket : String} {w w' : World} {o : Op}
  {answer : Ans o} {choice : Choice} {r : Recorded Op Ans World}

/-- The other operations leave the recorded failures as they are. -/
theorem act_failures (during : o.During victim) (done : act w o choice = some (answer, w')) :
    w'.failures = w.failures := by
  cases o with
  | writeFailures name count => exact during.elim
  | unwrapNone => cases done
  | names | sleep duration =>
    simp only [act] at done
    split at done
    · cases done
      rfl
    · cases done
  | spawn name cmd =>
    simp only [act, actSpawn] at done
    split at done
    · cases done
      rfl
    · split at done
      · cases done
      · cases done
        rfl
  | tryWait name child =>
    simp only [act, actTryWait] at done
    split at done
    · cases done
      rfl
    · split at done
      · cases done
      · split at done
        · cases done
          rfl
        · cases done
          rfl
  | wait name child =>
    simp only [act, actWait] at done
    split at done
    · cases done
    · split at done
      · cases done
      · cases done
        rfl
  | _ =>
    cases done
    rfl

/-- No operation on the way to a kill changes what the last checks are. -/
theorem checks_cons_victim (during : o.During (some name)) (name' : String)
    (past : List (Event Op Ans World)) :
    checks name' (⟨w, o, some answer⟩ :: past) = checks name' past := by
  cases o with
  | spawn name cmd => cases during
  | probe name periodic target =>
    cases (during : periodic = false)
    rfl
  | _ => rfl

/-- The recorded failures of these services are at most those that the current process has in a
row. -/
def Counts (P : String → Prop) (r : Recorded Op Ans World) : Prop :=
  ∀ name, P name → ∀ count ∈ r.state.failures.get name, count ≤ failing name r.past

/-- What is asked of a kill. -/
def KillsFailing (r : Recorded Op Ans World) (o : Op) : Prop :=
  ∀ name, o.Kills name → ThreeFailed name r.past

/-- Spawns find no failures recorded, and kills come after three failures. -/
abbrev counting : Contract Op Ans (Recorded Op Ans World) :=
  remembering (relying afresh).rely KillsFailing

variable {P : String → Prop}

theorem Counts.step (counts : Counts P r) (during : o.During victim)
    (relied : (relying afresh).rely r.state o answer)
    (done : act r.state o choice = some (answer, w')) :
    Counts P ⟨w', ⟨r.state, o, some answer⟩ :: r.past⟩ := by
  intro name within count recorded
  rw [act_failures during done] at recorded
  have before := counts name within count recorded
  cases o with
  | spawn name' cmd =>
    cases answer with
    | error e => exact before
    | ok out =>
      by_cases same : name' = name
      · subst same
        have none : r.state.failures.get name' = none := relied rfl name' rfl
        rw [none] at recorded
        cases recorded
      · have kept : checks name (⟨r.state, .spawn name' cmd, some (.ok out)⟩ :: r.past) =
            checks name r.past := if_neg same
        rwa [failing, kept]
  | probe name' periodic target =>
    cases (during : periodic = false)
    exact before
  | writeFailures name count => exact during.elim
  | _ => exact before

/-- A part of a pass that checks nothing, and kills at most a service that has failed. -/
theorem wp_during {α : Type} {p : M α} (issues : Issues (Op.During victim) p) (counts : Counts P r)
    (failed : ∀ name, victim = some name → ThreeFailed name r.past) :
    wp (recording act) counting p (fun _ r' => Counts P r') r := by
  apply wp_mono (Q := fun _ r' => Counts P r' ∧ ∀ name, victim = some name → ThreeFailed name r'.past)
  · apply issues.wp (I := fun r' => Counts P r' ∧ ∀ name, victim = some name → ThreeFailed name r'.past)
    · rintro r' o during ⟨-, failed'⟩ name kills
      apply failed' name
      cases o with
      | kill name' pid signal | startKill name' child => rw [during, kills]
      | _ => cases kills
    · rintro r' o choice answer r'' during relied recorded ⟨counts', failed'⟩
      obtain ⟨w', done, rfl⟩ := recording_eq_some.mp recorded
      apply And.intro (counts'.step during relied done)
      rintro name rfl
      obtain ⟨e₁, e₂, e₃, older, three⟩ := failed' name rfl
      exact ⟨e₁, e₂, e₃, older, (checks_cons_victim during name r'.past).trans three⟩
    · exact ⟨counts, failed⟩
  · exact fun _ r' both => both.1

/-- A part that kills nothing. -/
theorem wp_harmless {α : Type} {p : M α} (issues : Issues (Op.During none) p) (counts : Counts P r) :
    wp (recording act) counting p (fun _ r' => Counts P r') r :=
  wp_during issues counts (by rintro _ ⟨⟩)

/-! ### A turn of `health_check_all` -/

/-- Three failures in a row are the last three checks. -/
theorem threeFailed_of_failing {past : List (Event Op Ans World)}
    (many : maxHealthFailures ≤ failing name past) : ThreeFailed name past := by
  unfold failing at many
  unfold ThreeFailed
  match checks name past, many with
  | .error e₁ :: .error e₂ :: .error e₃ :: older, _ => exact ⟨e₁, e₂, e₃, older, rfl⟩
  | [], many | .ok _ :: _, many | [.error _], many | .error _ :: .ok _ :: _, many
  | [.error _, .error _], many | .error _ :: .error _ :: .ok _ :: _, many =>
    simp [maxHealthFailures, Except.isOk, Except.toBool] at many

/-- The failures of the service are forgotten. -/
theorem wp_removeFailures_recorded (counts : Counts (· ≠ name) r) :
    wp (recording act) counting (removeFailures name) (fun _ r' => Counts (fun _ => True) r' ∧
      ∀ name', checks name' r'.past = checks name' r.past) r := by
  simp only [removeFailures, wp_bind]
  apply wp_recording_perform (by rintro _ ⟨⟩)
  rintro choice _ _ ⟨⟩ -
  apply wp_recording_perform (by rintro _ ⟨⟩)
  rintro choice _ _ ⟨⟩ -
  apply wp_recording_perform (by rintro _ ⟨⟩)
  rintro choice _ _ ⟨⟩ -
  apply And.intro
  · intro name' _ count recorded
    change count ∈ (r.state.setFailures name none).failures.get name' at recorded
    rw [World.get_failures_setFailures] at recorded
    split at recorded
    · cases recorded
    · exact counts name' ‹_› count recorded
  · exact fun _ => rfl

/-- The restart of a service of which three checks have failed. -/
theorem wp_restartUnhealthy_recorded {e : String} (counts : Counts (fun _ => True) r)
    (failed : ThreeFailed name r.past) :
    wp (recording act) counting (restartUnhealthy busSocket name e)
      (fun _ r' => Counts (fun _ => True) r') r := by
  rw [restartUnhealthy, wp_bind]
  apply wp_recording_perform (by rintro _ ⟨⟩)
  rintro choice _ _ ⟨⟩ -
  have logged : Counts (· ≠ name) ⟨r.state.note (.line (.healthFailed name)),
      ⟨r.state, .log (.healthFailed name), some ()⟩ :: r.past⟩ := fun name' _ => counts name' trivial
  rw [wp_bind]
  apply wp_mono (wp_removeFailures_recorded logged)
  rintro ⟨⟩ r₁ ⟨counts₁, same⟩
  rw [wp_bind]
  have failed₁ : ThreeFailed name r₁.past := by
    obtain ⟨e₁, e₂, e₃, older, three⟩ := failed
    exact ⟨e₁, e₂, e₃, older, (same name).trans three⟩
  apply wp_mono (wp_during issues_killService counts₁ (by rintro _ ⟨⟩; exact failed₁))
  rintro ⟨⟩ r₂ counts₂
  refine wp_harmless ?_ counts₂
  exact .bind (issues_call trivial) fun _ => .bind (issues_call trivial) fun svc =>
    .bind (issues_unwrap svc) fun svc => .bind (issues_call trivial) fun _ =>
    .bind (issues_call trivial) fun _ => .bind (issues_call trivial) fun _ =>
    .bind issues_startService fun _ => trivial

/-- What follows a check, whose result has just been recorded. -/
theorem wp_handleHealth_recorded (result : Except String Unit) (counts : Counts (· ≠ name) r)
    (failed : result.isOk = false → r.state.failureCount name ≤ failing name r.past) :
    wp (recording act) counting (handleHealth busSocket name result)
      (fun _ r' => Counts (fun _ => True) r') r := by
  cases result with
  | ok =>
    apply wp_mono (wp_removeFailures_recorded counts)
    exact fun _ r' both => both.1
  | error e =>
    simp only [handleHealth, wp_bind]
    apply wp_recording_perform (by rintro _ ⟨⟩)
    rintro choice _ _ ⟨⟩ -
    apply wp_recording_perform (by rintro _ ⟨⟩)
    rintro choice _ _ ⟨⟩ -
    apply wp_recording_perform (by rintro _ ⟨⟩)
    rintro choice _ _ ⟨⟩ -
    have counted : Counts (fun _ => True)
        ⟨r.state.setFailures name (some (r.state.failureCount name)),
          ⟨r.state, .writeFailures name (some (r.state.failureCount name)), some ()⟩ ::
            ⟨r.state, .readFailures name, some (r.state.failures.get name)⟩ ::
              ⟨r.state, .acquire .failures name .exclusive, some ()⟩ :: r.past⟩ := by
      intro name' _ count recorded
      rw [World.get_failures_setFailures] at recorded
      split at recorded
      · rename_i same
        cases recorded
        rw [same]
        exact failed rfl
      · exact counts name' ‹_› count recorded
    split
    · rename_i many
      have three : ThreeFailed name r.past :=
        threeFailed_of_failing (Nat.le_trans many (failed rfl))
      rw [wp_bind]
      apply wp_mono (wp_restartUnhealthy_recorded counted three)
      exact fun _ r' counts' => wp_harmless (issues_call trivial) counts'
    · exact wp_harmless (issues_call trivial) counted

/-- A failed check is one more in a row. -/
theorem Counts.checked (counts : Counts (fun _ => True) r) (target : Probe)
    {result : Except String Unit} (failed : result.isOk = false) :
    r.state.failureCount name ≤ failing name (⟨r.state, .probe name true target, some result⟩ :: r.past) := by
  have grows : failing name (⟨r.state, .probe name true target, some result⟩ :: r.past) =
      failing name r.past + 1 := by
    have checked : checks name (⟨r.state, .probe name true target, some result⟩ :: r.past) =
        result :: checks name r.past := if_pos rfl
    rw [failing, checked, List.takeWhile_cons, failed]
    rfl
  rw [grows, World.failureCount]
  cases recorded : r.state.failures.get name with
  | none => exact Nat.le_add_left 1 _
  | some count => exact Nat.add_le_add_right (counts name trivial count recorded) 1

/-- A turn of the loop of `health_check_all`. -/
theorem wp_checkServiceHealth_recorded (counts : Counts (fun _ => True) r) :
    wp (recording act) counting (checkServiceHealth busSocket name)
      (fun _ r' => Counts (fun _ => True) r') r := by
  have release : ∀ r', Counts (fun _ => True) r' →
      wp (recording act) counting (release .services name .shared)
        (fun _ r' => Counts (fun _ => True) r') r' := fun r' =>
    wp_harmless (issues_call trivial)
  rw [checkServiceHealth, wp_bind]
  apply wp_mono (wp_harmless (issues_call (o := .acquire .services name .shared) trivial) counts)
  intro _ r₁ counts₁
  rw [wp_bind]
  apply wp_mono (wp_harmless (issues_call (o := .read name) trivial) counts₁)
  intro entry r₂ counts₂
  rw [wp_bind]
  apply wp_mono (wp_harmless (issues_unwrap entry) counts₂)
  intro entry r₃ counts₃
  dsimp only
  split
  · exact release r₃ counts₃
  · rename_i method _
    simp only [wp_bind]
    unfold checkHealth
    split
    · -- There is nothing to connect to.
      rw [wp_pure]
      apply wp_mono (wp_handleHealth_recorded (.ok ()) (fun name' _ => counts₃ name' trivial) (by rintro ⟨⟩))
      exact fun _ r' => release r'
    · rename_i target _
      apply wp_recording_perform (by rintro _ ⟨⟩)
      rintro choice result w' acted -
      have passed : w' = r₃.state.pass choice := by cases acted; rfl
      subst passed
      apply wp_mono (wp_handleHealth_recorded result _ (counts₃.checked target))
      · exact fun _ r' => release r'
      · intro name' other count recorded
        have same : checks name' (⟨r₃.state, .probe name true target, some result⟩ :: r₃.past) =
            checks name' r₃.past := if_neg (Ne.symm other)
        rw [failing, same]
        exact counts₃ name' trivial count recorded

/-- A pass before the shutdown. -/
theorem wp_runPass_recorded (pass : Pass) {order : List String} (live : pass ≠ .shutdown)
    (counts : Counts (fun _ => True) r) :
    wp (recording act) counting (runPass busSocket order pass)
      (fun _ r' => Counts (fun _ => True) r') r := by
  cases pass with
  | monitor => exact wp_harmless issues_monitorServices counts
  | health =>
    rw [runPass, healthCheckAll, wp_bind]
    apply wp_mono (wp_harmless (issues_call (o := .names) trivial) counts)
    intro names r' counts'
    apply wp_forEach (fun _ r => Counts (fun _ => True) r) _ counts'
    exact fun name _ r holds => wp_checkServiceHealth_recorded holds
  | shutdown => exact absurd rfl live

/-- A run that has not come to the shutdown. -/
theorem wp_supervise_recorded {order : List String} {passes : List Pass} (live : .shutdown ∉ passes)
    (counts : Counts (fun _ => True) r) :
    wp (recording act) counting (supervise busSocket order passes)
      (fun _ r' => Counts (fun _ => True) r') r := by
  rw [supervise, wp_bind]
  apply wp_mono (wp_harmless (issues_boot order) counts)
  rintro (e | _) r' counts'
  · exact counts'
  · rw [wp_bind]
    apply wp_mono (wp_forEach (fun rest r => (∀ pass ∈ rest, pass ≠ Pass.shutdown) ∧
      Counts (fun _ => True) r) _ _)
    · exact fun _ r' both => both.2
    · rintro pass rest r ⟨live, holds⟩
      obtain ⟨here, later⟩ := List.forall_mem_cons.mp live
      exact wp_mono (wp_runPass_recorded pass here holds) fun _ r' holds' => ⟨later, holds'⟩
    · apply And.intro _ counts'
      rintro pass mem rfl
      exact live mem

end Counts

/-- **Kills for health**, in every run up to the shutdown, after which `run` makes no more passes.
If every process is spawned when no failures of its service are recorded, then a service is killed
only when the last three checks of its current process have failed. -/
theorem killed_after_three_failures (l : Launch) (busSocket : String) {passes : List Pass}
    (live : .shutdown ∉ passes) {choices : List Choice}
    (spawns : ∀ e ∈ trace act (supervise busSocket l.order passes) l.start choices,
      e.Relied (relying afresh))
    {before after : List (Event Op Ans World)} {e : Event Op Ans World} {name : String}
    (split : trace act (supervise busSocket l.order passes) l.start choices = before ++ e :: after)
    (kills : e.op.Kills name) : ThreeFailed name before.reverse := by
  have counts : Counts (fun _ => True) ⟨l.start, []⟩ := by rintro _ _ _ ⟨⟩
  have allowed := wp_recording_trace (wp_supervise_recorded live counts) spawns split name kills
  rwa [List.append_nil] at allowed

/-- What has been issued up to the kill of a service of which every check fails. -/
def unhealthyTrace : List (Event Op Ans World) :=
  trace act (supervise "" unhealthyLaunch.order [.health, .health, .health]) unhealthyLaunch.start
    (unhealthyRun.take 49)

theorem killed_after_three_failures_unhealthy : ∃ e, unhealthyTrace.getLast? = some e ∧
    e.op.Kills "a" ∧ ThreeFailed "a" unhealthyTrace.dropLast.reverse := by
  have some : unhealthyTrace ≠ [] := List.cons_ne_nil _ _
  have kills : (unhealthyTrace.getLast some).op.Kills "a" := rfl
  refine ⟨unhealthyTrace.getLast some, List.getLast?_eq_some_getLast some, kills, ?_⟩
  exact killed_after_three_failures unhealthyLaunch "" (by decide) (by decide)
    (List.dropLast_append_getLast some).symm kills

/-- A service that is restarted when it fails, and whose health is checked. -/
def checkedManifest : ServiceManifest :=
  { ServiceManifest.default "a" "/bin/a" with healthCheck := some "tcp:80" }

def checkedLaunch : Launch := (launch? .listed .listed [checkedManifest]).get (by decide)

/-- Two checks fail, the process exits, and the first check of the next one fails. -/
def staleRun : List Choice :=
  List.replicate 17 { pid := 1 } ++
    List.replicate 18 { order := ["a"], failure := some "refused" } ++
    List.replicate 29 { order := ["a"], exits := [(0, some 1)], pid := 2 } ++
    List.replicate 14 { order := ["a"], failure := some "refused" }

def staleTrace : List (Event Op Ans World) :=
  trace act (supervise "" checkedLaunch.order [.health, .health, .monitor, .health])
    checkedLaunch.start staleRun

/-- The failures of the process that has exited count against the next one: it is killed after
its first failed check. -/
theorem stale_failures_kill : (∃ e, staleTrace.getLast? = some e ∧ e.op = .kill "a" 2 .sigterm) ∧
    checks "a" staleTrace.dropLast.reverse = [.error "refused"] :=
  ⟨⟨_, rfl, rfl⟩, rfl⟩

end Monitord
