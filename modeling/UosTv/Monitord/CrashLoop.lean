import UosTv.Monitord.RestartPolicy
import UosTv.Monitord.Restarts

/-!
When an exit ends in a crash loop, and when it is answered by a restart.

`monitor_services` forgets the exits of a service that are out of its crash window. The ones it
keeps still give the right number for every window that ends now or later (`Counted`), so the
decision about an exit is the one that the complete history would give (`exit_decided`).
-/

namespace Monitord

open Effect Rust

/-! ### The exits that have been found -/

/-- The entry reports an exit of the service. -/
def Entry.ExitOf (name : String) : Entry → Prop
  | .line (.exited name' _) => name' = name
  | _ => False

instance (name : String) : (entry : Entry) → Decidable (entry.ExitOf name)
  | .line (.exited name' _) => inferInstanceAs (Decidable (name' = name))
  | .line (.healthFailed _) | .spawned _ => isFalse id

/-- When exits of the service have been found, the last one first. -/
def exits (name : String) (log : List (Nat × Entry)) : List Nat :=
  (log.filter fun e => e.2.ExitOf name).map Prod.fst

/-- How many exits of the service are in the crash window that ends at `now`. -/
def recentExits (manifest : ServiceManifest) (log : List (Nat × Entry)) (now : Nat) : Nat :=
  (exits manifest.name log).countP fun t => now - t < secs manifest.crashWindowSecs

theorem exits_cons (name : String) (t : Nat) (entry : Entry) (log : List (Nat × Entry)) :
    exits name ((t, entry) :: log) =
      if entry.ExitOf name then t :: exits name log else exits name log := by
  by_cases exit : entry.ExitOf name
  · simp [exits, exit]
  · simp [exits, exit]

variable {manifest : ServiceManifest} {services : List ServiceManifest} {w w' : World}
  {name : String} {svc : ServiceRuntime}

/-! ### What the records know of them -/

/-- The record counts the exits of every crash window that ends now or later. -/
structure Counted (manifest : ServiceManifest) (w : World) (svc : ServiceRuntime) : Prop where
  isManifest : svc.manifest = manifest
  crashes : ∀ now, w.now ≤ now →
    svc.crashTimestamps.countP (fun t => now - t < secs manifest.crashWindowSecs) =
      recentExits manifest w.log now

def World.Counts (w : World) (manifest : ServiceManifest) : Prop :=
  ∃ svc, w.services.get manifest.name = some svc ∧ Counted manifest w svc

/-- All of the services are counted. -/
def World.CountsAll (w : World) (services : List ServiceManifest) : Prop :=
  ∀ manifest ∈ services, w.Counts manifest

theorem World.Counts.mono (counts : w.Counts manifest) (later : w.now ≤ w'.now)
    (same : exits manifest.name w'.log = exits manifest.name w.log)
    (record : ∀ svc, w.services.get manifest.name = some svc →
      ∃ svc', w'.services.get manifest.name = some svc' ∧ svc'.manifest = svc.manifest ∧
        svc'.crashTimestamps = svc.crashTimestamps) : w'.Counts manifest := by
  obtain ⟨svc, found, counted⟩ := counts
  obtain ⟨svc', found', sameManifest, sameCrashes⟩ := record svc found
  refine ⟨svc', found', sameManifest.trans counted.isManifest, fun now since => ?_⟩
  rw [sameCrashes, counted.crashes now (later.trans since), recentExits, recentExits, same]

/-- Where the records are as before. -/
theorem World.Counts.same (counts : w.Counts manifest) (later : w.now ≤ w'.now)
    (log : exits manifest.name w'.log = exits manifest.name w.log)
    (services : w'.services = w.services) : w'.Counts manifest :=
  counts.mono later log fun svc found => ⟨svc, by rw [services, found], rfl, rfl⟩

theorem World.CountsAll.known {l : Launch} (counts : w.CountsAll l.services) :
    w.Known l.order := by
  intro name inside
  obtain ⟨manifest, mem, rfl⟩ := List.mem_map.mp (l.order_perm.mem_iff.mp inside)
  obtain ⟨svc, found, -⟩ := counts manifest mem
  exact ⟨svc, found⟩

theorem Launch.counts_start (l : Launch) : l.start.CountsAll l.services := by
  intro manifest mem
  exact ⟨_, l.get_start.mpr ⟨manifest, mem, rfl, rfl⟩, rfl, fun now _ => rfl⟩

/-- The exit that has just been found is counted too. -/
theorem Counted.recordExit (counted : Counted manifest w svc) (code : Option Int) {now : Nat}
    (later : w.now ≤ now) :
    (svc.recordExit w.now code).crashTimestamps.countP
        (fun t => now - t < secs manifest.crashWindowSecs) =
      recentExits manifest (w.note (.line (.exited manifest.name code))).log now := by
  have count := countP_recordExit svc later code
  rw [counted.isManifest, counted.crashes now later] at count
  have noted : exits manifest.name (w.note (.line (.exited manifest.name code))).log =
      w.now :: exits manifest.name w.log := (exits_cons ..).trans (if_pos rfl)
  rw [count, recentExits, recentExits, noted, List.countP_cons]
  simp

/-- The timestamps that are kept when an exit is found are those in the crash window. -/
theorem Counted.length_recordExit (counted : Counted manifest w svc) (code : Option Int) :
    (svc.recordExit w.now code).crashTimestamps.length =
      recentExits manifest (w.note (.line (.exited manifest.name code))).log w.now := by
  rw [Monitord.length_recordExit, counted.isManifest, counted.recordExit code le_rfl]

/-! ### What keeps them counted -/

section Outcomes

variable {rely : World → (o : Op) → Ans o → Prop} {busSocket : String}
  {result : Except String Unit} {here : List (String × Nat)}

theorem StartOutcome.exits (outcome : StartOutcome rely busSocket name svc w result w')
    (name' : String) : exits name' w'.log = exits name' w.log := by
  rcases outcome.log.2 with same | ⟨t, spawned⟩
  · rw [same]
  · rw [spawned, exits_cons, if_neg (show ¬ Entry.ExitOf name' (.spawned name) from id)]

theorem StartOutcome.counts (outcome : StartOutcome rely busSocket name svc w result w')
    (found : w.services.get name = some svc) (notLooped : ¬ svc.Looped)
    (counts : w.Counts manifest) : w'.Counts manifest := by
  apply counts.mono outcome.log.1 (outcome.exits manifest.name)
  intro svc₁ found₁
  obtain ⟨svc₂, found₂, kept, crashes, -⟩ := outcome.records found notLooped found₁
  exact ⟨svc₂, found₂, kept, crashes⟩

theorem StopOutcome.counts (outcome : StopOutcome name svc w w')
    (found : w.services.get name = some svc) (counts : w.Counts manifest) : w'.Counts manifest := by
  apply counts.mono outcome.log.2 (by rw [outcome.log.1])
  intro svc₁ found₁
  obtain ⟨svc₂, found₂, kept, crashes, -⟩ := outcome.record found found₁
  exact ⟨svc₂, found₂, kept, crashes⟩

theorem CheckOutcome.counts (outcome : CheckOutcome rely name svc w here w')
    (found : w.services.get name = some svc) (counts : w.Counts manifest) : w'.Counts manifest := by
  by_cases same : name = manifest.name
  · subst same
    cases outcome with
    | idle => exact counts
    | alive _ _ _ _ later => exact counts.same later.now (by rw [later.log]) later.services
    | @exited child code v active _ _ later logged =>
      have there : (v.reap child).Counts manifest := by
        exact counts.same (Nat.le_trans later.now le_rfl) (by rw [← later.log]; rfl) later.services
      obtain ⟨svc', found', counted⟩ := there
      have found'' : (v.reap child).services.get manifest.name = some svc := by
        rw [← found, ← later.services]
        rfl
      cases found''.symm.trans found'
      obtain ⟨-, sameManifest, sameCrashes⟩ := decideExit_fields (svc.recordExit v.now code) code
      refine ⟨_, World.get_put_self, sameManifest.trans counted.isManifest, fun now since => ?_⟩
      rw [sameCrashes]
      exact counted.recordExit code since
  · apply counts.mono outcome.now
    · rcases outcome.adds same with same' | ⟨t, entry, noFailure, added⟩
      · rw [same']
      · rw [added, exits_cons, if_neg]
        intro exit
        cases entry with
        | spawned name' => exact exit
        | line line =>
          cases line with
          | exited name' code => exact noFailure exit
          | healthFailed name' => exact exit
    · intro svc₁ found₁
      exact ⟨svc₁, by rw [outcome.others (Ne.symm same), found₁], rfl, rfl⟩

theorem HealthOutcome.counts (outcome : HealthOutcome rely busSocket name svc w w')
    (found : w.services.get name = some svc) (counts : w.Counts manifest) : w'.Counts manifest := by
  cases outcome with
  | unchecked => exact counts
  | healthy _ later => exact counts.same later.now (by rw [← later.log]; rfl) later.services
  | counted _ _ _ later =>
    exact counts.same later.now (by rw [← later.log]; rfl) later.services
  | @restarted e w₃ _ _ killed start =>
    obtain ⟨later, ⟨t, log⟩, record, others⟩ := killed.books
    apply start.counts record (not_looped_unhealthy svc e)
    apply counts.mono later
    · rw [log, exits_cons, if_neg (show ¬ Entry.ExitOf manifest.name (.line (.healthFailed name)) from id)]
    · intro svc₁ found₁
      by_cases same : manifest.name = name
      · rw [same] at found₁ ⊢
        cases found.symm.trans found₁
        exact ⟨_, record, rfl, rfl⟩
      · exact ⟨svc₁, by rw [others _ same, found₁], rfl, rfl⟩

end Outcomes

/-! ### Runs -/

section Runs

variable {l : Launch} {busSocket : String} {here : List (String × Nat)}

theorem wp_boot_counts : wp act (relying anyAnswer) (boot busSocket l.order)
    (fun result w => result = .ok () → w.Sound none ∧ w.CountsAll l.services) l.start := by
  refine wp_mono (wp_boot l.order_nodup l.pending_start l.sound_start
    (fun _ w => w.CountsAll l.services) (fun _ => True) l.counts_start
    (fun _ _ _ _ _ _ => trivial) ?_) ?_
  · intro name rest w manifest result w' counts _ found outcome
    apply And.intro _ fun _ _ _ => trivial
    intro _ manifest' mem
    exact outcome.counts found (not_looped_new _) (counts manifest' mem)
  · rintro result w ⟨sound, ⟨-, counts⟩ | ⟨⟨e, rfl⟩, -⟩⟩ ok
    · exact ⟨sound, counts⟩
    · cases ok

/-- Every pass keeps the exits of all services counted. -/
theorem wp_runPass_counts (pass : Pass) (sound : w.Sound none) (counts : w.CountsAll l.services) :
    wp act (relying anyAnswer) (runPass busSocket l.order pass)
      (fun _ w' => w'.Sound none ∧ w'.CountsAll l.services) w := by
  cases pass with
  | monitor =>
    apply wp_monitorServices sound (fun _ _ w => w.CountsAll l.services)
      (fun _ w => w.CountsAll l.services) (fun _ _ _ => counts) _ (fun _ _ holds _ _ => holds)
      (fun _ _ _ _ _ _ => trivial)
    · intro r rest w svc result w' counts _ found _ notLooped outcome manifest mem
      exact outcome.counts found notLooped (counts manifest mem)
    · intro name rest acc w svc here w' counts _ found outcome manifest mem
      exact outcome.counts found (counts manifest mem)
  | health =>
    apply wp_healthCheckAll sound (fun _ w => w.CountsAll l.services) (fun _ _ => counts)
      (fun _ _ _ _ _ _ _ _ _ _ _ _ => trivial)
    intro name rest w svc w' counts _ found outcome manifest mem
    exact outcome.counts found (counts manifest mem)
  | shutdown =>
    apply wp_shutdownAll counts.known sound (fun w => w.CountsAll l.services) counts
    intro name w svc w' counts _ found outcome manifest mem
    exact outcome.counts found (counts manifest mem)

/-- A run up to a turn of `monitor_services`: the boot and some passes, and the first turns of
another one. It returns the order in which this pass goes through the services. -/
def turns (busSocket : String) (order : List String) (passes : List Pass) (n : Nat) :
    M (Except String (List String)) := do
  match ← supervise busSocket order passes with
  | .error e => pure (.error e)
  | .ok () => do
    let names ← serviceNames
    let _ ← collectRestarts (names.take n)
    pure (.ok names)

theorem wp_turns (passes : List Pass) (n : Nat) :
    wp act (relying anyAnswer) (turns busSocket l.order passes n) (fun result w =>
      result.isOk = true → w.Sound none ∧ w.CountsAll l.services) l.start := by
  simp only [turns, wp_bind]
  apply wp_mono (wp_supervise passes _ wp_boot_counts fun pass w holds =>
    wp_runPass_counts pass holds.1 holds.2)
  rintro (e | _) w booted
  · rintro ⟨⟩
  · obtain ⟨sound, counts⟩ := booted rfl
    simp only [wp_bind, wp_pure]
    rw [wp_serviceNames]
    intro names perm _
    have nodup : (names.take n).Nodup :=
      (perm.nodup_iff.mpr w.services.keys_nodup).sublist (List.take_sublist _ _)
    have known : w.Known (names.take n) := fun name mem =>
      HashMap.mem_keys.mp (perm.mem_iff.mp (List.mem_of_mem_take mem))
    have ready : w.Ready [] := ⟨List.nodup_nil, List.forall_mem_nil _⟩
    apply wp_mono (wp_collectRestarts nodup known sound ready (List.forall_mem_nil _)
      (fun _ _ w => w.CountsAll l.services) counts _)
    · rintro restarts w' ⟨sound', -, counts'⟩ -
      exact ⟨sound', counts'⟩
    · intro name rest acc w svc here w' counts _ found outcome manifest mem
      exact outcome.counts found (counts manifest mem)

/-- The record does not change when something else has happened than an exit. -/
theorem Counted.later (counted : Counted manifest w svc) (later : w.now ≤ w'.now)
    (log : w'.log = w.log) : Counted manifest w' svc := by
  apply Counted.mk counted.isManifest
  intro now since
  rw [log]
  exact counted.crashes now (later.trans since)

theorem decideExit_looped_iff (calm : ¬ svc.Looped) (code : Option Int) :
    (decideExit svc code).1.Looped ↔ svc.crashLooping = true := by
  unfold decideExit
  split
  · rename_i looping
    exact iff_of_true ⟨_, rfl⟩ looping
  · rename_i few
    split
    · exact iff_of_false calm few
    · apply iff_of_false _ few
      rintro ⟨reason, looped⟩
      cases looped

theorem decideExit_queued_iff (code : Option Int) : (decideExit svc code).2 = true ↔
    ¬ svc.crashLooping = true ∧ shouldRestart svc.manifest.restart code = true := by
  unfold decideExit
  split
  · simp [*]
  · split <;> simp [*]

theorem World.crashLooped_put : (w.put name svc).CrashLooped name ↔ svc.Looped := by
  simp [World.CrashLooped]

/-- The decision about the exit that a turn has found. -/
theorem CheckOutcome.decided {t : Nat} {code : Option Int}
    (outcome : CheckOutcome anyAnswer manifest.name svc w here w') (counted : Counted manifest w svc)
    (detected : w'.log = (t, .line (.exited manifest.name code)) :: w.log) :
    (w'.CrashLooped manifest.name ↔ manifest.maxCrashCount < recentExits manifest w'.log t) ∧
      here = if ¬ manifest.maxCrashCount < recentExits manifest w'.log t ∧
          shouldRestart manifest.restart code = true then
        [(manifest.name, manifest.restartDelayMs)] else [] := by
  have grows : ∀ {log : List (Nat × Entry)} {e}, log ≠ e :: log := by
    intro log e same
    have length := congrArg List.length same
    simp at length
  cases outcome with
  | idle => exact absurd detected grows
  | alive _ _ _ _ later => exact absurd (later.log.symm.trans detected) (fun same => grows same)
  | @exited child code' v active has answered later logged =>
    have found : (v.now, Entry.line (.exited manifest.name code')) :: v.log =
        (t, .line (.exited manifest.name code)) :: w.log := detected
    rw [later.log] at found
    cases found
    have there : Counted manifest (v.reap child) svc := counted.later later.now later.log
    have many : (svc.recordExit v.now code).crashTimestamps.length =
        recentExits manifest ((v.now, .line (.exited manifest.name code)) :: w.log) v.now := by
      rw [← later.log]
      exact there.length_recordExit code
    have isManifest : (svc.recordExit v.now code).manifest = manifest := counted.isManifest
    have loops : (svc.recordExit v.now code).crashLooping = true ↔ manifest.maxCrashCount <
        recentExits manifest ((v.now, .line (.exited manifest.name code)) :: w.log) v.now := by
      rw [ServiceRuntime.crashLooping, decide_eq_true_iff, isManifest, many]
    have running : ¬ (svc.recordExit v.now code).Looped := by
      rintro ⟨reason, looped⟩
      cases looped
    have marked := decideExit_looped_iff running code
    have queued : (decideExit (svc.recordExit v.now code) code).2 = true ↔ _ :=
      decideExit_queued_iff code
    rw [loops] at marked
    rw [loops, isManifest] at queued
    rw [detected]
    apply And.intro (World.crashLooped_put.trans marked)
    have delay : svc.manifest = manifest := counted.isManifest
    simp only [ServiceRuntime.restarts, queued, delay]

/-- **The exits of a service**, in every run. The turn of `monitor_services` that finds an exit of
a service marks it as in a crash loop iff the exits found so far within the crash window, this
one included, are more than the manifest allows. Otherwise the service is queued for a restart
iff its policy is `always`, or it is `on-failure` and the exit code is not 0. -/
theorem exit_decided (l : Launch) (busSocket : String) (passes : List Pass) {n t : Nat}
    {choices left rest : List Choice} {names : List String} {w w' : World} {code : Option Int}
    {manifest : ServiceManifest} {here : List (String × Nat)} (mem : manifest ∈ l.services)
    (run : exec act (turns busSocket l.order passes n) l.start choices =
      some (.ok names, w, left))
    (check : exec act (checkService manifest.name) w left = some (here, w', rest))
    (detected : w'.log = (t, .line (.exited manifest.name code)) :: w.log) :
    (w'.CrashLooped manifest.name ↔ manifest.maxCrashCount < recentExits manifest w'.log t) ∧
      (manifest.name ∈ here.map Prod.fst ↔
        ¬ manifest.maxCrashCount < recentExits manifest w'.log t ∧
          (manifest.restart = .always ∨ manifest.restart = .onFailure ∧ code ≠ some 0)) := by
  obtain ⟨sound, counts⟩ := wp_exec (wp_turns passes n) run (fun e _ => relied_anyAnswer e) rfl
  obtain ⟨svc, found, counted⟩ := counts manifest mem
  have outcome : CheckOutcome anyAnswer manifest.name svc w here w' :=
    wp_exec (wp_checkService (G := Allowed) found (sound.agrees _ svc (Option.some_ne_none _) found)) check
      fun e _ => relied_anyAnswer e
  obtain ⟨looped, isHere⟩ := outcome.decided counted detected
  apply And.intro looped
  have policy : shouldRestart manifest.restart code = true ↔
      manifest.restart = .always ∨ manifest.restart = .onFailure ∧ code ≠ some 0 := by
    cases manifest.restart <;> simp [shouldRestart]
  rw [isHere, ← policy]
  split
  · rename_i queued
    simp [queued]
  · rename_i dropped
    simp only [dropped, iff_false]
    exact List.not_mem_nil

end Runs

/-- The world after the boot. -/
def promptBooted : World :=
  lastWorld promptLaunch.start
    (exec act (turns "" promptLaunch.order [] 0) promptLaunch.start exitRun)

/-- The world after the turn that finds the exit. -/
def promptExited : World :=
  lastWorld promptBooted (exec act (checkService "a") promptBooted (exitRun.drop 15))

/-- After the boot the service exits with code 1; this is its first exit, and it is restarted. -/
theorem exit_decided_prompt :
    exec act (turns "" promptLaunch.order [] 0) promptLaunch.start exitRun =
      some (.ok ["a"], promptBooted, exitRun.drop 15) ∧
    ¬ promptExited.CrashLooped "a" := by
  have run : exec act (turns "" promptLaunch.order [] 0) promptLaunch.start exitRun =
      some (.ok ["a"], promptBooted, exitRun.drop 15) := rfl
  have check : exec act (checkService promptManifest.name) promptBooted (exitRun.drop 15) =
      some ([("a", 0)], promptExited, exitRun.drop 26) := rfl
  have detected : promptExited.log = (0, .line (.exited promptManifest.name (some 1))) ::
      promptBooted.log := rfl
  obtain ⟨looped, -⟩ := exit_decided promptLaunch "" [] List.mem_cons_self run check detected
  apply And.intro run
  intro loops
  exact absurd (looped.mp loops) (by decide)

end Monitord
