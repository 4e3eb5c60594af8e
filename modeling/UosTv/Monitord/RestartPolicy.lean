import UosTv.Monitord.Processes

/-!
The restarts of a run, against the manifest.

The log is the complete history: `recentFailures` counts the failures of a service in the
crash window that ends at some time, `lastFailure` is the failure that the next spawn would
answer. `RestartAllowed` says that the manifest allows this spawn now, and `Exceeded` that
the service has failed too often.

The records keep less than the log. `World.Tracks` says that it is enough: the timestamps
that a record still has give the same count for every window that ends now or later. It is
kept as long as every failure is `Heeded`, that is, is an exit with no delay before the
restart, or a check that has not failed three times; then every restart is allowed
(`restarts_allowed`).
-/

namespace Monitord

open Effect Rust

/-! ### The log -/

/-- The entry reports a failure of the service. -/
def Entry.FailureOf (name : String) : Entry → Prop
  | .spawned _ => False
  | .line (.exited name' _) => name' = name
  | .line (.healthFailed name') => name' = name

instance (name : String) : (entry : Entry) → Decidable (entry.FailureOf name)
  | .spawned _ => isFalse id
  | .line (.exited name' _) => inferInstanceAs (Decidable (name' = name))
  | .line (.healthFailed name') => inferInstanceAs (Decidable (name' = name))

/-- When failures of the service have been logged, the last one first. -/
def failures (name : String) (log : List (Nat × Entry)) : List Nat :=
  (log.filter fun e => e.2.FailureOf name).map Prod.fst

/-- How many failures of the service are in the crash window that ends at `now`. -/
def recentFailures (manifest : ServiceManifest) (log : List (Nat × Entry)) (now : Nat) : Nat :=
  (failures manifest.name log).countP fun t => now - t < secs manifest.crashWindowSecs

/-- When the service has failed last, if it has failed since it was last spawned. -/
def lastFailure (name : String) : List (Nat × Entry) → Option Nat
  | [] => none
  | (t, entry) :: log =>
    if entry = .spawned name then none
    else if entry.FailureOf name then some t
    else lastFailure name log

/-- At some failure there have been more in the crash window than the manifest allows. -/
def Exceeded (manifest : ServiceManifest) : List (Nat × Entry) → Prop
  | [] => False
  | (t, entry) :: log => entry.FailureOf manifest.name ∧
      manifest.maxCrashCount < recentFailures manifest ((t, entry) :: log) t ∨ Exceeded manifest log

/-- If a spawn of the service now is a restart, then the manifest allows it. -/
def RestartAllowed (manifest : ServiceManifest) (w : World) : Prop :=
  ∀ detected ∈ lastFailure manifest.name w.log,
    manifest.restart ≠ .never ∧ detected + millis manifest.restartDelayMs ≤ w.now ∧
      recentFailures manifest w.log detected ≤ manifest.maxCrashCount

instance (manifest : ServiceManifest) (w : World) : Decidable (RestartAllowed manifest w) :=
  inferInstanceAs (Decidable (∀ _ ∈ lastFailure _ _, _ ∧ _ ∧ _))

/-- The failures that are handled as the manifest says: a check that has not failed for the
third time, and an exit after which there is no delay before the restart, if one is due. -/
def Heeded (w : World) : (o : Op) → Ans o → Prop
  | .probe name true _, answer =>
    Except.isOk answer = false → w.failureCount name < maxHealthFailures
  | .log (.exited name code), _ => ∀ svc ∈ w.services.get name,
      shouldRestart svc.manifest.restart code = true →
      recentFailures svc.manifest (w.note (.line (.exited name code))).log w.now ≤
        svc.manifest.maxCrashCount → svc.manifest.restartDelayMs = 0
  | _, _ => True

instance (w : World) : (o : Op) → (answer : Ans o) → Decidable (Heeded w o answer)
  | .probe name true _, answer => inferInstanceAs (Decidable
      (Except.isOk answer = false → w.failureCount name < maxHealthFailures))
  | .log (.exited name code), _ => inferInstanceAs (Decidable (∀ svc ∈ w.services.get name,
      shouldRestart svc.manifest.restart code = true →
      recentFailures svc.manifest (w.note (.line (.exited name code))).log w.now ≤
        svc.manifest.maxCrashCount → svc.manifest.restartDelayMs = 0))
  | .probe _ false _, _ | .log (.healthFailed _), _ | .names, _ | .tryWait _ _, _ | .pathExists _ _, _
  | .spawn _ _, _ | .acquire _ _ _, _ | .release _ _ _, _ | .read _, _ | .write _ _, _
  | .readFailures _, _ | .writeFailures _ _, _ | .unwrapNone, _ | .now, _ | .sleep _, _
  | .wait _ _, _ | .drop _, _ | .startKill _ _, _ | .kill _ _ _, _ => isTrue trivial

variable {manifest : ServiceManifest} {w w' : World} {name : String} {svc : ServiceRuntime}

/-- Nothing, or an entry that is no failure of the service, is added to the log. -/
def Adds (name : String) (log log' : List (Nat × Entry)) : Prop :=
  log' = log ∨ ∃ t entry, ¬ entry.FailureOf name ∧ log' = (t, entry) :: log

theorem recentFailures_cons (t : Nat) (entry : Entry) (log : List (Nat × Entry)) (now : Nat) :
    recentFailures manifest ((t, entry) :: log) now = recentFailures manifest log now +
      if entry.FailureOf manifest.name ∧ now - t < secs manifest.crashWindowSecs then 1 else 0 := by
  by_cases failure : entry.FailureOf manifest.name
  · simp [recentFailures, failures, failure, List.countP_cons]
  · simp [recentFailures, failures, failure]

theorem Adds.recentFailures {log log' : List (Nat × Entry)} (adds : Adds manifest.name log log')
    (now : Nat) : recentFailures manifest log' now = recentFailures manifest log now := by
  rcases adds with rfl | ⟨t, entry, noFailure, rfl⟩
  · rfl
  · simp [recentFailures_cons, noFailure]

theorem Adds.exceeded {log log' : List (Nat × Entry)} (adds : Adds manifest.name log log') :
    Exceeded manifest log' ↔ Exceeded manifest log := by
  rcases adds with rfl | ⟨t, entry, noFailure, rfl⟩
  · rfl
  · simp [Exceeded, noFailure]

/-- Time, entries about others and spawns leave it allowed. -/
theorem RestartAllowed.mono (allowed : RestartAllowed manifest w) (later : w.now ≤ w'.now)
    (adds : Adds manifest.name w.log w'.log) : RestartAllowed manifest w' := by
  intro detected last
  have last' : detected ∈ lastFailure manifest.name w.log := by
    rcases adds with same | ⟨t, entry, noFailure, added⟩
    · rwa [same] at last
    · rw [added, lastFailure, if_neg noFailure] at last
      split at last
      · cases last
      · exact last
  obtain ⟨policy, delay, recent⟩ := allowed detected last'
  exact ⟨policy, delay.trans later, by rwa [adds.recentFailures]⟩

/-! ### The records -/

/-- What the record of a service knows of its failures: how many there are in a crash window
that ends now or later, and that they have been too many. -/
structure Tracked (manifest : ServiceManifest) (w : World) (svc : ServiceRuntime) : Prop where
  isManifest : svc.manifest = manifest
  crashes : ∀ now, w.now ≤ now →
    svc.crashTimestamps.countP (fun t => now - t < secs manifest.crashWindowSecs) =
      recentFailures manifest w.log now
  looped : Exceeded manifest w.log → svc.Looped

def World.Tracks (w : World) (manifest : ServiceManifest) : Prop :=
  ∃ svc, w.services.get manifest.name = some svc ∧ Tracked manifest w svc

theorem World.Tracks.mono (tracks : w.Tracks manifest) (later : w.now ≤ w'.now)
    (adds : Adds manifest.name w.log w'.log)
    (record : ∀ svc, w.services.get manifest.name = some svc →
      ∃ svc', w'.services.get manifest.name = some svc' ∧ svc'.manifest = svc.manifest ∧
        svc'.crashTimestamps = svc.crashTimestamps ∧ (svc.Looped → svc'.Looped)) :
    w'.Tracks manifest := by
  obtain ⟨svc, found, tracked⟩ := tracks
  obtain ⟨svc', found', sameManifest, sameCrashes, stays⟩ := record svc found
  refine ⟨svc', found', sameManifest.trans tracked.isManifest, fun now since => ?_, fun exceeded => ?_⟩
  · rw [sameCrashes, adds.recentFailures]
    exact tracked.crashes now (later.trans since)
  · exact stays (tracked.looped (adds.exceeded.mp exceeded))

/-- Where the records are as before. -/
theorem World.Tracks.same (tracks : w.Tracks manifest) (later : w.now ≤ w'.now)
    (log : w'.log = w.log) (services : w'.services = w.services) : w'.Tracks manifest :=
  tracks.mono later (.inl log) fun svc found => ⟨svc, by rw [services, found], rfl, rfl, id⟩

section Starting

variable {rely : World → (o : Op) → Ans o → Prop} {busSocket : String} {result : Except String Unit}

theorem StartOutcome.adds (outcome : StartOutcome rely busSocket name svc w result w')
    (name' : String) : Adds name' w.log w'.log := by
  rcases outcome.log.2 with same | ⟨t, spawned⟩
  · exact .inl same
  · exact .inr ⟨t, _, id, spawned⟩

theorem StartOutcome.tracks (outcome : StartOutcome rely busSocket name svc w result w')
    (found : w.services.get name = some svc) (notLooped : ¬ svc.Looped)
    (tracks : w.Tracks manifest) : w'.Tracks manifest := by
  apply tracks.mono outcome.log.1 (outcome.adds manifest.name)
  intro svc₁ found₁
  exact outcome.records found notLooped found₁

theorem StopOutcome.tracks (outcome : StopOutcome name svc w w')
    (found : w.services.get name = some svc) (tracks : w.Tracks manifest) : w'.Tracks manifest :=
  tracks.mono outcome.log.2 (.inl outcome.log.1) fun _ found₁ => outcome.record found found₁

end Starting

/-! ### Exits -/

/-- The timestamps that are forgotten are in no window that ends now or later. -/
theorem countP_recordExit (svc : ServiceRuntime) {now now' : Nat} (later : now ≤ now')
    (code : Option Int) :
    (svc.recordExit now code).crashTimestamps.countP
        (fun t => now' - t < secs svc.manifest.crashWindowSecs) =
      svc.crashTimestamps.countP (fun t => now' - t < secs svc.manifest.crashWindowSecs) +
        if now' - now < secs svc.manifest.crashWindowSecs then 1 else 0 := by
  have kept : ∀ t, (now' - t < secs svc.manifest.crashWindowSecs ∧
      now - t < secs svc.manifest.crashWindowSecs) ↔ now' - t < secs svc.manifest.crashWindowSecs := by
    omega
  simp [ServiceRuntime.recordExit, List.countP_filter, List.countP_append, List.countP_singleton,
    ← Bool.decide_and, kept]

theorem length_recordExit (svc : ServiceRuntime) (now : Nat) (code : Option Int) :
    (svc.recordExit now code).crashTimestamps.length =
      (svc.recordExit now code).crashTimestamps.countP
        (fun t => now - t < secs svc.manifest.crashWindowSecs) := by
  symm
  rw [List.countP_eq_length]
  intro t mem
  exact (List.mem_filter.mp mem).2

theorem decideExit_looped {svc : ServiceRuntime} (many : svc.crashLooping = true)
    (code : Option Int) : (decideExit svc code).1.Looped := by
  rw [decideExit, if_pos many]
  exact ⟨_, rfl⟩

section Exits

variable {code : Option Int}

/-- The timestamps with the new one are as many as the failures in any later window. -/
theorem Tracked.recordExit (tracked : Tracked manifest w svc) (code : Option Int) {now : Nat}
    (later : w.now ≤ now) :
    (svc.recordExit w.now code).crashTimestamps.countP
        (fun t => now - t < secs manifest.crashWindowSecs) =
      recentFailures manifest (w.note (.line (.exited manifest.name code))).log now := by
  have count := countP_recordExit svc later code
  rw [tracked.isManifest, tracked.crashes now later] at count
  rw [count, World.note, recentFailures_cons]
  simp [Entry.FailureOf]

theorem Tracked.length_recordExit (tracked : Tracked manifest w svc) (code : Option Int) :
    (svc.recordExit w.now code).crashTimestamps.length =
      recentFailures manifest (w.note (.line (.exited manifest.name code))).log w.now := by
  rw [Monitord.length_recordExit, tracked.isManifest, tracked.recordExit code le_rfl]

/-- Recording an exit keeps track of the failures. -/
theorem Tracked.exit (tracked : Tracked manifest w svc) (notLooped : ¬ svc.Looped)
    (code : Option Int) : Tracked manifest (w.note (.line (.exited manifest.name code)))
      (svc.afterExit w.now code) := by
  obtain ⟨-, sameManifest, sameCrashes⟩ := decideExit_fields (svc.recordExit w.now code) code
  constructor
  · rw [ServiceRuntime.afterExit, sameManifest]
    exact tracked.isManifest
  · intro now later
    rw [ServiceRuntime.afterExit, sameCrashes]
    exact tracked.recordExit code later
  · rintro (⟨-, many⟩ | exceeded)
    · apply decideExit_looped
      rw [ServiceRuntime.crashLooping, decide_eq_true_iff, tracked.length_recordExit code]
      rw [← tracked.isManifest] at many ⊢
      exact many
    · exact absurd (tracked.looped exceeded) notLooped

/-- A restart after an exit is allowed when there is no delay to wait for. -/
theorem Tracked.restart_allowed (tracked : Tracked manifest w svc)
    (again : svc.restarts w.now code = true)
    (heeded : shouldRestart manifest.restart code = true →
      recentFailures manifest (w.note (.line (.exited manifest.name code))).log w.now ≤
        manifest.maxCrashCount → manifest.restartDelayMs = 0) :
    RestartAllowed manifest (w.note (.line (.exited manifest.name code))) := by
  obtain ⟨-, calm, wanted⟩ := decideExit_restart again
  have sameManifest : (svc.recordExit w.now code).manifest = manifest := tracked.isManifest
  rw [sameManifest] at wanted
  have few : recentFailures manifest (w.note (.line (.exited manifest.name code))).log w.now ≤
      manifest.maxCrashCount := by
    rw [ServiceRuntime.crashLooping, decide_eq_false_iff_not, tracked.length_recordExit code,
      sameManifest] at calm
    exact Nat.not_lt.mp calm
  intro detected last
  have isNow : detected = w.now := by
    simpa [World.note, lastFailure, Entry.FailureOf, eq_comm] using last
  subst isNow
  refine ⟨?_, ?_, few⟩
  · intro never
    rw [never] at wanted
    cases wanted
  · rw [heeded wanted few]
    exact le_rfl

end Exits

/-! ### The passes -/

section Passes

variable {here : List (String × Nat)}

theorem CheckOutcome.now {rely : World → (o : Op) → Ans o → Prop}
    (outcome : CheckOutcome rely name svc w here w') : w.now ≤ w'.now := by
  cases outcome with
  | idle => exact le_rfl
  | alive _ _ _ _ later => exact later.now
  | exited _ _ _ later => exact later.now

theorem CheckOutcome.adds {rely : World → (o : Op) → Ans o → Prop}
    (outcome : CheckOutcome rely name svc w here w') {name' : String} (other : name ≠ name') :
    Adds name' w.log w'.log := by
  cases outcome with
  | idle => exact .inl rfl
  | alive _ _ _ _ later => exact .inl later.log
  | exited _ _ _ later => exact .inr ⟨_, .line (.exited name _), other, by rw [← later.log]; rfl⟩

theorem CheckOutcome.tracks (outcome : CheckOutcome Heeded name svc w here w')
    (found : w.services.get name = some svc) (tracks : w.Tracks manifest) :
    w'.Tracks manifest ∧ (∀ r ∈ here, r.1 = manifest.name → RestartAllowed manifest w') := by
  by_cases same : name = manifest.name
  · subst same
    cases outcome with
    | idle => exact ⟨tracks, by simp⟩
    | alive _ _ _ _ later => exact ⟨tracks.same later.now later.log later.services, by simp⟩
    | @exited child code v active _ _ later logged =>
      have there : (v.reap child).Tracks manifest :=
        tracks.same (Nat.le_trans later.now le_rfl) later.log later.services
      obtain ⟨svc', found', tracked⟩ := there
      have found'' : (v.reap child).services.get manifest.name = some svc := by
        rw [← found, ← later.services]
        rfl
      cases found''.symm.trans found'
      have after := tracked.exit (not_looped_of_active active) code
      refine ⟨⟨_, World.get_put_self, after.isManifest, after.crashes, after.looped⟩, ?_⟩
      rintro r mem -
      split at mem
      · have heeded := logged svc found''
        rw [tracked.isManifest] at heeded
        exact tracked.restart_allowed ‹_› heeded
      · cases mem
  · refine ⟨tracks.mono outcome.now (outcome.adds same) fun svc₁ found₁ => ?_, ?_⟩
    · exact ⟨svc₁, by rw [outcome.others (Ne.symm same), found₁], rfl, rfl, id⟩
    · intro r mem isName
      exact absurd ((outcome.mem_here mem).2.1.symm.trans isName) same

variable {l : Launch} {busSocket : String}

/-- All of the services are tracked. -/
def World.TracksAll (w : World) (services : List ServiceManifest) : Prop :=
  ∀ manifest ∈ services, w.Tracks manifest

theorem World.TracksAll.carries {services : List ServiceManifest} (tracks : w.TracksAll services) :
    w.Carries services := by
  intro manifest mem
  obtain ⟨svc, found, tracked⟩ := tracks manifest mem
  exact ⟨svc, found, tracked.isManifest⟩

/-- The manifests of that name, of which there is one, allow a spawn now. -/
def SpawnAllowed (services : List ServiceManifest) (w : World) (name : String) : Prop :=
  ∀ manifest ∈ services, manifest.name = name → RestartAllowed manifest w

theorem SpawnAllowed.mono {services : List ServiceManifest} (allowed : SpawnAllowed services w name)
    (later : w.now ≤ w'.now) (adds : Adds name w.log w'.log) : SpawnAllowed services w' name := by
  rintro manifest mem rfl
  exact (allowed manifest mem rfl).mono later adds

theorem lastFailure_eq_none {log : List (Nat × Entry)}
    (noFailure : ∀ e ∈ log, ¬ e.2.FailureOf name) : lastFailure name log = none := by
  induction log with
  | nil => rfl
  | cons e log ih =>
    obtain ⟨here, noFailure⟩ := List.forall_mem_cons.mp noFailure
    rw [lastFailure, if_neg here, ih noFailure, ite_self]

theorem Launch.tracks_start (l : Launch) : l.start.TracksAll l.services := by
  intro manifest mem
  exact ⟨_, l.get_start.mpr ⟨manifest, mem, rfl, rfl⟩, rfl, fun now _ => rfl, False.elim⟩

/-- In the boot nothing is restarted. -/
theorem wp_boot_tracks :
    wp act (contract Heeded (AllowedWith (SpawnAllowed l.services))) (boot busSocket l.order)
      (fun result w => result = .ok () → w.Sound none ∧ w.TracksAll l.services) l.start := by
  refine wp_mono (wp_boot l.order_nodup l.pending_start l.sound_start
    (fun _ w => w.TracksAll l.services ∧ ∀ name, ∀ e ∈ w.log, ¬ e.2.FailureOf name)
    (fun _ => True) ⟨l.tracks_start, by simp [Launch.start, World.init]⟩ ?_ ?_) ?_
  · rintro name rest w w' ⟨-, noFailure⟩ later manifest - rfl detected last
    rw [later.log, lastFailure_eq_none (noFailure _)] at last
    cases last
  · rintro name rest w manifest result w' ⟨tracks, noFailure⟩ - found outcome
    have tracks' : w'.TracksAll l.services := fun manifest' mem =>
      outcome.tracks found (not_looped_new _) (tracks manifest' mem)
    refine ⟨fun _ => ⟨tracks', fun name' e mem => ?_⟩, fun _ _ _ => trivial⟩
    rcases outcome.log.2 with same | ⟨t, spawned⟩
    · exact noFailure name' e (same ▸ mem)
    · rw [spawned] at mem
      rcases List.mem_cons.mp mem with rfl | mem
      · exact id
      · exact noFailure name' e mem
  · rintro result w ⟨sound, ⟨-, tracks, -⟩ | ⟨⟨e, rfl⟩, -⟩⟩ ok
    · exact ⟨sound, tracks⟩
    · cases ok

/-- Every pass restarts only what the manifests allow, and keeps track of the failures. -/
theorem wp_runPass_tracks (pass : Pass) (sound : w.Sound none) (tracks : w.TracksAll l.services) :
    wp act (contract Heeded (AllowedWith (SpawnAllowed l.services))) (runPass busSocket l.order pass)
      (fun _ w' => w'.Sound none ∧ w'.TracksAll l.services) w := by
  cases pass with
  | monitor =>
    refine wp_mono (wp_monitorServices sound
      (fun rest acc w => w.TracksAll l.services ∧ rest.Nodup ∧ (∀ r ∈ acc, r.1 ∉ rest) ∧
        ∀ r ∈ acc, SpawnAllowed l.services w r.1)
      (fun rest w => w.TracksAll l.services ∧ (rest.map Prod.fst).Nodup ∧
        ∀ r ∈ rest, SpawnAllowed l.services w r.1) ?_ ?_ ?_ ?_ ?_)
      fun _ w' post => ⟨post.1, post.2.1⟩
    · intro names perm _
      exact ⟨tracks, perm.nodup_iff.mpr w.services.keys_nodup, by simp, by simp⟩
    · rintro name rest acc w svc here w' ⟨tracks, nodup, apart, allowed⟩ - found outcome
      obtain ⟨new, nodup⟩ := List.nodup_cons.mp nodup
      refine ⟨fun manifest mem => (outcome.tracks found (tracks manifest mem)).1, nodup, ?_, ?_⟩
      · intro r mem
        rcases List.mem_append.mp mem with mem | mem
        · exact fun inside => apart r mem (List.mem_cons_of_mem _ inside)
        · rwa [(outcome.mem_here mem).2.1]
      · intro r mem
        rcases List.mem_append.mp mem with mem | mem
        · have other : name ≠ r.1 := fun same => apart r mem (same ▸ List.mem_cons_self)
          exact (allowed r mem).mono outcome.now (outcome.adds other)
        · intro manifest isManifest named
          exact (outcome.tracks found (tracks manifest isManifest)).2 r mem named.symm
    · rintro restarts w ⟨tracks, -, -, allowed⟩ - ready
      exact ⟨tracks, ready.nodup, allowed⟩
    · rintro r rest w w' ⟨-, -, allowed⟩ later
      exact (allowed r List.mem_cons_self).mono later.now (.inl later.log)
    · rintro r rest w svc result w' ⟨tracks, nodup, allowed⟩ - found - notLooped outcome
      refine ⟨fun manifest mem => outcome.tracks found notLooped (tracks manifest mem),
        (List.nodup_cons.mp nodup).2, fun r' mem => ?_⟩
      exact (allowed r' (List.mem_cons_of_mem _ mem)).mono outcome.log.1 (outcome.adds r'.1)
  | health =>
    refine wp_healthCheckAll sound (fun _ w => w.TracksAll l.services) (fun _ _ => tracks) ?_ ?_
    · rintro name rest w svc e w₃ w' - - - ⟨-, -, answered, -, many, -⟩
      exact absurd (answered rfl) (Nat.not_lt.mpr many)
    · intro name rest w svc w' tracks _ found outcome manifest mem
      cases outcome with
      | unchecked => exact tracks manifest mem
      | healthy _ later =>
        exact (tracks manifest mem).same later.now later.log later.services
      | counted _ _ _ later =>
        exact (tracks manifest mem).same later.now later.log later.services
      | restarted killed =>
        obtain ⟨-, -, answered, -, many, -⟩ := killed
        exact absurd (answered rfl) (Nat.not_lt.mpr many)
  | shutdown =>
    refine wp_shutdownAll tracks.carries.known sound (fun w => w.TracksAll l.services) tracks ?_
    intro name w svc w' tracks _ found outcome manifest mem
    exact outcome.tracks found (tracks manifest mem)

end Passes

/-- **Restarts obey the manifest**, in every run in which every failure is heeded: no check
fails for the third time in a row, and there is no delay before a restart that is due after an
exit. A spawn that answers a failure is allowed by the manifest: restarts are not excluded, the
delay has passed since the failure was found, and there were not too many failures in the crash
window. After the boot and after every pass, a service that has failed too often in its crash
window is in a crash loop. -/
theorem restarts_allowed (l : Launch) (busSocket : String) (passes : List Pass)
    (choices : List Choice)
    (heeded : ∀ e ∈ trace act (supervise busSocket l.order passes) l.start choices,
      e.Relied (relying Heeded)) :
    (∀ e ∈ trace act (supervise busSocket l.order passes) l.start choices,
      ∀ manifest ∈ l.services, ∀ cmd, e.op = .spawn manifest.name cmd →
        RestartAllowed manifest e.before) ∧
    (∀ w rest, exec act (supervise busSocket l.order passes) l.start choices =
        some (.ok (), w, rest) → ∀ manifest ∈ l.services, Exceeded manifest w.log →
      w.CrashLooped manifest.name) := by
  have pre : wp act (contract Heeded (AllowedWith (SpawnAllowed l.services)))
      (supervise busSocket l.order passes)
      (fun result w => result = .ok () → w.Sound none ∧ w.TracksAll l.services) l.start :=
    wp_supervise passes _ wp_boot_tracks fun pass w holds => wp_runPass_tracks pass holds.1 holds.2
  constructor
  · intro e mem manifest isManifest cmd isSpawn
    exact (wp_trace pre heeded e mem).2 manifest.name cmd isSpawn manifest isManifest rfl
  · intro w rest run manifest isManifest exceeded
    obtain ⟨-, tracks⟩ := wp_exec pre run heeded rfl
    obtain ⟨svc, found, tracked⟩ := tracks manifest isManifest
    exact ⟨svc, found, tracked.looped exceeded⟩

/-- A service that is restarted at once. -/
def promptManifest : ServiceManifest :=
  { ServiceManifest.default "a" "/bin/a" with restartDelayMs := 0 }

def promptLaunch : Launch := (launch? .listed .listed [promptManifest]).get (by decide)

/-- The process exits with code 1 before the first pass. -/
def exitRun : List Choice :=
  List.replicate 14 { pid := 1 } ++ List.replicate 26 { order := ["a"], exits := [(0, some 1)] }

theorem restarts_allowed_prompt :
    ∃ e ∈ trace act (supervise "" promptLaunch.order [.monitor]) promptLaunch.start exitRun,
      (∃ cmd, e.op = .spawn "a" cmd) ∧ RestartAllowed promptManifest e.before := by
  have mem := List.mem_of_getElem? (i := 30) (l := trace act
    (supervise "" promptLaunch.order [.monitor]) promptLaunch.start exitRun) rfl
  refine ⟨_, mem, ⟨_, rfl⟩, ?_⟩
  exact (restarts_allowed promptLaunch "" [.monitor] exitRun (by decide)).1 _ mem promptManifest
    List.mem_cons_self _ rfl

/-- A service that is not to be restarted, and whose health is checked. -/
def unhealthyManifest : ServiceManifest :=
  { ServiceManifest.default "a" "/bin/a" with restart := .never, healthCheck := some "tcp:80" }

def unhealthyLaunch : Launch := (launch? .listed .listed [unhealthyManifest]).get (by decide)

/-- After the boot, every check of the service fails. -/
def unhealthyRun : List Choice :=
  List.replicate 17 { pid := 1 } ++
    List.replicate 60 { order := ["a"], elapsed := 10 ^ 9, failure := some "refused" }

/-- After an exit the service is spawned before its delay of a second has passed. After three
failed checks a service is spawned that is never to be restarted. -/
theorem restart_not_allowed :
    (∃ e ∈ trace act (supervise "" soloLaunch.order [.monitor]) soloLaunch.start exitRun,
      ∃ cmd, e.op = .spawn "a" cmd ∧ ¬ RestartAllowed (.default "a" "/bin/a") e.before) ∧
    ∃ e ∈ trace act (supervise "" unhealthyLaunch.order [.health, .health, .health])
        unhealthyLaunch.start unhealthyRun,
      ∃ cmd, e.op = .spawn "a" cmd ∧ ¬ RestartAllowed unhealthyManifest e.before := by
  constructor
  · exact ⟨_, List.mem_of_getElem? (i := 30) rfl, _, rfl, by decide⟩
  · exact ⟨_, List.mem_of_getElem? (i := 67) rfl, _, rfl, by decide⟩

end Monitord
