import UosTv.Monitord.Ownership

/-!
What `start_service` does.

`StartOutcome` lists the four ways in which it ends: a dependency is not running, the
binary is missing, the spawn fails, or the service runs. `wp_startService` says that there
are no others. A wait for a dependency ends well exactly when the dependency runs already,
because nobody else changes a status meanwhile.
-/

namespace Monitord

open Effect Rust

variable {rely : World → (o : Op) → Ans o → Prop} {w w' : World} {name : String}
  {svc : ServiceRuntime}

/-! ### Records -/

theorem not_looped_of_active (active : svc.Active) : ¬ svc.Looped := by
  rintro ⟨reason, looped⟩
  rcases active with active | active
  · rw [looped] at active
    cases active
  · rw [looped] at active
    cases active

theorem not_looped_new (manifest : ServiceManifest) : ¬ (ServiceRuntime.new manifest).Looped := by
  rintro ⟨reason, looped⟩
  cases looped

/-- There is a record for each of the services. -/
def World.Known (w : World) (names : List String) : Prop :=
  ∀ name ∈ names, ∃ svc, w.services.get name = some svc

/-! ### The accesses of the maps -/

variable {G : World → Op → Prop} {S : World → String → Prop}

section Accesses

variable [Permits G]

omit [Permits G] in
@[simp] theorem wp_getService [Reads G] {Q : Option ServiceRuntime → World → Prop} :
    wp act (contract rely G) (getService name) Q w ↔ Q (w.services.get name) w := by
  simp [getService]

omit [Permits G] in
@[simp] theorem wp_unwrap {α : Type} {a : α} {Q : α → World → Prop} :
    wp act (contract rely G) (unwrap (some a)) Q w ↔ Q a w := Iff.rfl

/-- After a panic nothing is left to show. -/
theorem wp_unwrap_none {α : Type} {Q : α → World → Prop} :
    wp act (contract rely G) (unwrap none) Q w := by
  have free : G w .unwrapNone := Permits.free w _ rfl
  refine ⟨free, ?_⟩
  rintro choice answer w' ⟨⟩

theorem wp_updateService (found : w.services.get name = some svc)
    {update : ServiceRuntime → M ServiceRuntime} {Q : Unit → World → Prop}
    (body : wp act (contract rely G) (update svc)
      (fun svc' w' => G w' (.write name svc') ∧ Q () (w'.put name svc')) w) :
    wp act (contract rely G) (updateService name update) Q w := by
  simp only [updateService, wp_bind, wp_acquire, wp_readService, found, wp_unwrap, wp_writeService,
    wp_release]
  exact body

/-! ### Waiting -/

omit [Permits G] in
@[simp] theorem wp_statusOf [Reads G] {Q : ServiceStatus → World → Prop} :
    wp act (contract rely G) (statusOf name) Q w ↔ Q (w.statusOf name) w := by
  simp [statusOf, World.statusOf]

/-- A wait for a service that does not run ends with an error. -/
theorem wp_waitLoop (down : w.statusOf name ≠ .running) (start turns : Nat) :
    wp act (contract rely G) (waitLoop name start turns)
      (fun result w' => (∃ e, result = .error e) ∧ w.Later w') w := by
  induction turns generalizing w with
  | zero => exact ⟨⟨_, rfl⟩, .refl⟩
  | succ turns ih =>
    simp only [waitLoop, wp_bind, wp_instantNow]
    split
    · exact ⟨⟨_, rfl⟩, .refl⟩
    · simp only [wp_bind, wp_statusOf]
      split
      · exact absurd ‹_› down
      · exact ⟨⟨_, rfl⟩, .refl⟩
      · exact ⟨⟨_, rfl⟩, .refl⟩
      · simp only [wp_bind]
        refine wp_sleep fun choice _ => ?_
        have later : w.Later (w.pass choice) := World.Later.refl.pass choice
        refine wp_mono (ih (by rwa [later.statusOf])) fun result w' post => ?_
        exact ⟨post.1, later.trans post.2⟩

omit [Permits G] in
/-- A wait for a service that runs ends at once. -/
theorem wp_waitLoop_running [Reads G] {Q : Except String Unit → World → Prop}
    (up : w.statusOf name = .running) (turns : Nat) (post : Q (.ok ()) w) :
    wp act (contract rely G) (waitLoop name w.now (turns + 1)) Q w := by
  simp only [waitLoop, wp_bind, wp_instantNow, Nat.sub_self, Nat.not_lt_zero, if_false, wp_statusOf, up]
  exact post

theorem wp_waitUntilRunning :
    wp act (contract rely G) (waitUntilRunning name) (fun result w' => w.Later w' ∧
      (result = .ok () ∧ w.statusOf name = .running ∨
        (∃ e, result = .error e) ∧ w.statusOf name ≠ .running)) w := by
  simp only [waitUntilRunning, wp_bind, wp_instantNow]
  by_cases up : w.statusOf name = .running
  · exact wp_waitLoop_running up 301 ⟨.refl, .inl ⟨rfl, up⟩⟩
  · refine wp_mono (wp_waitLoop up _ _) fun result w' post => ?_
    exact ⟨post.2, .inr ⟨post.1, up⟩⟩

/-- All of the services run. -/
def World.AllRunning (w : World) (names : List String) : Prop :=
  ∀ name ∈ names, w.statusOf name = .running

theorem wp_waitAll (deps : List String) :
    wp act (contract rely G) (waitAll deps) (fun result w' => w.Later w' ∧
      (result = .ok () ∧ w.AllRunning deps ∨ (∃ e, result = .error e) ∧ ¬ w.AllRunning deps)) w := by
  induction deps generalizing w with
  | nil => exact ⟨.refl, .inl ⟨rfl, List.forall_mem_nil _⟩⟩
  | cons dep deps ih =>
    simp only [waitAll, wp_bind]
    refine wp_mono wp_waitUntilRunning ?_
    rintro result w' ⟨later, ⟨rfl, up⟩ | ⟨⟨e, rfl⟩, down⟩⟩
    · refine wp_mono ih ?_
      have same : w'.AllRunning deps ↔ w.AllRunning deps :=
        forall₂_congr fun name _ => by rw [later.statusOf]
      rintro result w'' ⟨later', post⟩
      refine ⟨later.trans later', ?_⟩
      rw [same] at post
      simpa [World.AllRunning, up] using post
    · refine ⟨later, .inr ⟨⟨e, rfl⟩, fun all => down (all dep List.mem_cons_self)⟩⟩

theorem wp_checkHealth {periodic : Bool} {method : String} {Q : Except String Unit → World → Prop}
    (unprobed : probeOf method = none → Q (.ok ()) w)
    (probed : ∀ target result choice, probeOf method = some target →
      rely w (.probe name periodic target) result → Q result (w.pass choice)) :
    wp act (contract rely G) (checkHealth periodic name method) Q w := by
  unfold checkHealth
  cases target : probeOf method with
  | none => exact unprobed target
  | some t => exact wp_probe fun result choice relied => probed t result choice target relied

theorem wp_healthLoop (method : String) (deadline cutoff turns : Nat) :
    wp act (contract rely G) (healthLoop name method deadline cutoff turns)
      (fun _ w' => w.Later w') w := by
  induction turns generalizing w with
  | zero => exact .refl
  | succ turns ih =>
    simp only [healthLoop, wp_bind, wp_instantNow]
    split
    · exact .refl
    · simp only [wp_bind]
      refine wp_checkHealth (fun _ => .refl) fun _ result choice _ _ => ?_
      have later : w.Later (w.pass choice) := World.Later.refl.pass choice
      cases result with
      | ok => exact later
      | error e =>
        simp only [wp_bind, wp_instantNow]
        refine wp_sleep fun choice' _ => ?_
        split
        · exact later.pass choice'
        · exact wp_mono ih fun _ _ after => (later.pass choice').trans after

theorem wp_waitForHealth (manifest : ServiceManifest) :
    wp act (contract rely G) (waitForHealth manifest name) (fun _ w' => w.Later w') w := by
  unfold waitForHealth
  split
  · exact .refl
  · simp only [wp_bind, wp_instantNow]
    exact wp_healthLoop _ _ _ _

end Accesses

/-! ### Outcomes -/

/-- The record of a service whose process has just been spawned. -/
def ServiceRuntime.starting (svc : ServiceRuntime) (child : ProcId) (pid now : Nat) :
    ServiceRuntime :=
  { svc with status := .starting, child := some child, pid := some pid, startedAt := some now }

/-- The ways in which `start_service` ends, for a service with record `svc`. -/
inductive StartOutcome (rely : World → (o : Op) → Ans o → Prop) (busSocket name : String)
    (svc : ServiceRuntime) (w : World) : Except String Unit → World → Prop where
  | blocked {w' : World} {e : String} (down : ¬ w.AllRunning svc.manifest.dependencies)
      (later : w.Later w') : StartOutcome rely busSocket name svc w (.error e) w'
  | missing {w' : World} {e : String} (up : w.AllRunning svc.manifest.dependencies)
      (path : Answered rely (.pathExists name svc.manifest.binary) false) (later : w.Later w') :
      StartOutcome rely busSocket name svc w (.error e)
        (w'.put name { svc with status := .failed ("binary not found: " ++ svc.manifest.binary) })
  | refused {w' : World} {e reason : String} (up : w.AllRunning svc.manifest.dependencies)
      (path : Answered rely (.pathExists name svc.manifest.binary) true)
      (spawn : Answered rely (.spawn name (command busSocket svc.manifest)) (.error reason))
      (later : w.Later w') : StartOutcome rely busSocket name svc w (.error e) w'
  | started {w₁ w₂ : World} {pid : Nat} (up : w.AllRunning svc.manifest.dependencies)
      (path : Answered rely (.pathExists name svc.manifest.binary) true)
      (spawn : Answered rely (.spawn name (command busSocket svc.manifest)) (.ok (w.nextId, pid)))
      (before : w.Later w₁) (new : pid ∉ w₁.procs.map (·.pid))
      (after : ((w₁.spawned name pid).put name (svc.starting w.nextId pid w₁.now)).Later w₂) :
      StartOutcome rely busSocket name svc w (.ok ())
        (w₂.put name { svc.starting w.nextId pid w₁.now with status := .running })

theorem wp_afterSpawn [Grants G S] {busSocket : String} {w₁ : World} {pid : Nat}
    (up : w.AllRunning svc.manifest.dependencies)
    (path : Answered rely (.pathExists name svc.manifest.binary) true)
    (spawn : Answered rely (.spawn name (command busSocket svc.manifest)) (.ok (w.nextId, pid)))
    (before : w.Later w₁) (new : pid ∉ w₁.procs.map (·.pid))
    (found : w.services.get name = some svc) (childless : svc.child = none)
    (notLooped : ¬ svc.Looped) :
    wp act (contract rely G) (afterSpawn name svc.manifest w.nextId pid)
      (StartOutcome rely busSocket name svc w) (w₁.spawned name pid) := by
  have found₁ : (w₁.spawned name pid).services.get name = some svc := by
    rw [← found, ← before.services]
    rfl
  simp only [afterSpawn, wp_bind]
  refine wp_updateService found₁ ?_
  simp only [markStarting, childless, dropChild, wp_bind, wp_pure, wp_instantNow]
  refine ⟨Grants.of_allowed ?_ not_false, wp_mono (wp_waitForHealth _) fun _ w₂ after => ?_⟩
  · intro old isOld looped
    rw [found₁] at isOld
    cases isOld
    exact absurd looped notLooped
  · have found₂ : w₂.services.get name = some (svc.starting w.nextId pid w₁.now) := by
      rw [after.services]
      exact World.get_put_self
    refine wp_updateService found₂ ⟨Grants.of_allowed ?_ not_false,
      .started up path spawn before new after⟩
    rintro old isOld ⟨reason, looped⟩
    cases found₂.symm.trans isOld
    cases looped

/-- `start_service`, of a service without a process that is not in a crash loop. -/
theorem wp_startService [Grants G S] (busSocket : String) (found : w.services.get name = some svc)
    (childless : svc.child = none) (notLooped : ¬ svc.Looped)
    (spawns : ∀ w', w.Later w' → S w' name) :
    wp act (contract rely G) (startService busSocket name)
      (StartOutcome rely busSocket name svc w) w := by
  simp only [startService, wp_bind, wp_getService, found]
  refine wp_mono (wp_waitAll _) ?_
  rintro result w₁ ⟨later, ⟨rfl, up⟩ | ⟨⟨e, rfl⟩, down⟩⟩
  · simp only [spawnService, wp_bind]
    refine wp_pathExists fun exist choice relied => ?_
    have later' := later.pass choice
    have found' : (w₁.pass choice).services.get name = some svc := by rw [later'.services, found]
    cases exist with
    | false =>
      simp only [Bool.false_eq_true, if_false, wp_bind]
      refine wp_updateService found' ⟨Grants.of_allowed ?_ not_false, .missing up ⟨_, relied⟩ later'⟩
      intro old isOld looped
      rw [found'] at isOld
      cases isOld
      exact absurd looped notLooped
    | true =>
      simp only [if_true, wp_bind]
      have allowed : G (w₁.pass choice) (.spawn name (command busSocket svc.manifest)) := by
        refine Grants.allowed _ _ ⟨svc, found', childless, notLooped⟩ ?_
        rintro _ _ ⟨⟩
        exact spawns _ later'
      refine wp_spawn allowed ?_ ?_
      · intro reason choice' relied'
        exact .refused up ⟨_, relied⟩ ⟨_, relied'⟩ (later'.pass choice')
      · intro pid choice' relied' new
        rw [later'.nextId] at relied' ⊢
        exact wp_afterSpawn up ⟨_, relied⟩ ⟨_, relied'⟩ (later'.pass choice') new found childless
          notLooped
  · exact .blocked down later

namespace StartOutcome

variable {busSocket : String} {result : Except String Unit}

/-- The records of other services are as before. -/
theorem others (outcome : StartOutcome rely busSocket name svc w result w') {name' : String}
    (other : name' ≠ name) : w'.services.get name' = w.services.get name' := by
  cases outcome with
  | blocked _ later => rw [later.services]
  | missing _ _ later => rw [World.get_put_of_ne other, later.services]
  | refused _ _ _ later => rw [later.services]
  | started _ _ _ before _ after =>
    rw [World.get_put_of_ne other, after.services, World.get_put_of_ne other, ← before.services]
    rfl

/-- The service keeps its manifest and its crashes, and is in no crash loop. -/
theorem record (outcome : StartOutcome rely busSocket name svc w result w')
    (found : w.services.get name = some svc) (notLooped : ¬ svc.Looped) :
    ∃ svc', w'.services.get name = some svc' ∧ svc'.manifest = svc.manifest ∧
      svc'.crashTimestamps = svc.crashTimestamps ∧ ¬ svc'.Looped := by
  cases outcome with
  | blocked _ later => exact ⟨svc, by rw [later.services, found], rfl, rfl, notLooped⟩
  | missing _ _ later =>
    refine ⟨_, World.get_put_self, rfl, rfl, ?_⟩
    rintro ⟨reason, looped⟩
    cases looped
  | refused _ _ _ later => exact ⟨svc, by rw [later.services, found], rfl, rfl, notLooped⟩
  | started _ _ _ before _ after =>
    refine ⟨_, World.get_put_self, rfl, rfl, ?_⟩
    rintro ⟨reason, looped⟩
    cases looped

/-- Every service keeps its manifest and its crashes, and stays in a crash loop. -/
theorem records (outcome : StartOutcome rely busSocket name svc w result w')
    (found : w.services.get name = some svc) (notLooped : ¬ svc.Looped) {name' : String}
    {svc₁ : ServiceRuntime} (found₁ : w.services.get name' = some svc₁) :
    ∃ svc₂, w'.services.get name' = some svc₂ ∧ svc₂.manifest = svc₁.manifest ∧
      svc₂.crashTimestamps = svc₁.crashTimestamps ∧ (svc₁.Looped → svc₂.Looped) := by
  by_cases same : name' = name
  · subst same
    cases found.symm.trans found₁
    obtain ⟨svc₂, found₂, kept, crashes, -⟩ := outcome.record found notLooped
    exact ⟨svc₂, found₂, kept, crashes, fun looped => absurd looped notLooped⟩
  · exact ⟨svc₁, by rw [outcome.others same, found₁], rfl, rfl, id⟩

/-- When the answers are known, so is how it ends. -/
theorem ok_iff (outcome : StartOutcome rely busSocket name svc w result w') {present spawns : Bool}
    (paths : ∀ w path answer, rely w (.pathExists name path) answer → answer = present)
    (spawning : ∀ w cmd answer, rely w (.spawn name cmd) answer → Except.isOk answer = spawns) :
    result = .ok () ↔ present = true ∧ spawns = true ∧ w.AllRunning svc.manifest.dependencies := by
  cases outcome with
  | blocked down _ => simp [down]
  | missing _ path _ =>
    obtain ⟨v, answer⟩ := path
    simp [← paths v _ _ answer]
  | refused _ _ spawn _ =>
    obtain ⟨v, answer⟩ := spawn
    have refused : false = spawns := spawning v _ _ answer
    simp [← refused]
  | started up path spawn _ _ _ =>
    obtain ⟨v, isPresent⟩ := path
    obtain ⟨v', isSpawned⟩ := spawn
    have done : true = spawns := spawning v' _ _ isSpawned
    simp [← paths v _ _ isPresent, ← done, up]

/-- The service runs iff it has been started. -/
theorem running_iff (outcome : StartOutcome rely busSocket name svc w result w')
    (found : w.services.get name = some svc) (down : svc.status ≠ .running) :
    w'.statusOf name = .running ↔ result = .ok () := by
  have down' : w.statusOf name ≠ .running := by simpa [World.statusOf, found] using down
  cases outcome with
  | blocked _ later => simp [later.statusOf, down']
  | missing => simp [World.statusOf]
  | refused _ _ _ later => simp [later.statusOf, down']
  | started => simp [World.statusOf]

/-- At most a spawn is logged. -/
theorem log (outcome : StartOutcome rely busSocket name svc w result w') : w.now ≤ w'.now ∧
    (w'.log = w.log ∨ ∃ t, w'.log = (t, .spawned name) :: w.log) := by
  cases outcome with
  | blocked _ later => exact ⟨later.now, .inl later.log⟩
  | missing _ _ later => exact ⟨later.now, .inl later.log⟩
  | refused _ _ _ later => exact ⟨later.now, .inl later.log⟩
  | @started w₁ _ _ _ _ _ before _ after =>
    have logged := after.log
    refine ⟨Nat.le_trans before.now after.now, .inr ⟨w₁.now, ?_⟩⟩
    rw [← before.log]
    exact logged

/-- Every service keeps its manifest. -/
theorem manifest (outcome : StartOutcome rely busSocket name svc w result w')
    (found : w.services.get name = some svc) (notLooped : ¬ svc.Looped) {name' : String}
    {svc₁ : ServiceRuntime} (found₁ : w.services.get name' = some svc₁) :
    ∃ svc₂, w'.services.get name' = some svc₂ ∧ svc₂.manifest = svc₁.manifest := by
  obtain ⟨svc₂, found₂, kept, -⟩ := outcome.records found notLooped found₁
  exact ⟨svc₂, found₂, kept⟩

theorem sound (outcome : StartOutcome rely busSocket name svc w result w') (sound : w.Sound none)
    (childless : svc.child = none) : w'.Sound none := by
  cases outcome with
  | blocked _ later => exact later.sound sound
  | missing _ _ later =>
    exact ((later.sound sound).begin name).put
      (World.agrees_childless childless (by simp [ServiceRuntime.Active]))
  | refused _ _ _ later => exact later.sound sound
  | @started w₁ w₂ pid _ _ _ before new after =>
    have owned : (w₁.spawned name pid).Owns name w.nextId pid := by
      rw [← before.nextId]
      exact World.owns_spawned
    have agrees : (w₁.spawned name pid).Agrees name (svc.starting w.nextId pid w₁.now) := by
      refine ⟨?_, by simp [ServiceRuntime.Active, ServiceRuntime.starting]⟩
      rintro child ⟨⟩
      exact ⟨pid, rfl, owned⟩
    have sound₂ := after.sound (((((before.sound sound).begin name).spawned new name)).put agrees)
    refine (sound₂.begin name).put ⟨?_, by simp [ServiceRuntime.Active, ServiceRuntime.starting]⟩
    rintro child ⟨⟩
    exact ⟨pid, rfl, after.owns owned⟩

end StartOutcome

/-! ### The boot -/

/-- Not yet started. -/
def World.Pending (w : World) (name : String) : Prop :=
  ∃ manifest, w.services.get name = some (.new manifest)

/-- The rule of the boot: an invariant over the services still to be started. -/
theorem wp_boot [Grants G S] {busSocket : String} {order : List String} (nodup : order.Nodup)
    (pending : ∀ name ∈ order, w.Pending name) (sound : w.Sound none)
    (I : List String → World → Prop) (E : World → Prop) (start : I order w)
    (spawns : ∀ name rest w w', I (name :: rest) w → w.Later w' → S w' name)
    (step : ∀ name rest w manifest result w', I (name :: rest) w → w.Sound none →
      w.services.get name = some (.new manifest) →
      StartOutcome rely busSocket name (.new manifest) w result w' →
      (result = .ok () ∨ manifest.critical = false → I rest w') ∧
        (∀ e, result = .error e → manifest.critical = true → E w')) :
    wp act (contract rely G) (boot busSocket order) (fun result w' => w'.Sound none ∧
      (result = .ok () ∧ I [] w' ∨ (∃ e, result = .error e) ∧ E w')) w := by
  induction order generalizing w with
  | nil => exact ⟨sound, .inl ⟨rfl, start⟩⟩
  | cons name order ih =>
    obtain ⟨new, nodup⟩ := List.nodup_cons.mp nodup
    obtain ⟨⟨manifest, found⟩, pending⟩ := List.forall_mem_cons.mp pending
    simp only [boot, wp_bind]
    have ready : ∀ w', w.Later w' → S w' name := fun w' => spawns name order w w' start
    refine wp_mono (wp_startService busSocket found rfl (not_looped_new _) ready) fun result w' outcome => ?_
    have sound' := outcome.sound sound rfl
    have pending' : ∀ name ∈ order, w'.Pending name := by
      intro name' mem
      obtain ⟨manifest', found'⟩ := pending name' mem
      refine ⟨manifest', ?_⟩
      rw [outcome.others (by rintro rfl; exact new mem), found']
    obtain ⟨goesOn, fails⟩ := step name order w manifest result w' start sound found outcome
    cases result with
    | ok => exact ih nodup pending' sound' (goesOn (.inl rfl))
    | error e =>
      obtain ⟨svc', found', kept, -⟩ := outcome.record found (not_looped_new _)
      simp only [wp_bind, wp_getService, found', wp_unwrap, kept]
      split
      · rename_i critical
        exact ⟨sound', .inr ⟨⟨_, rfl⟩, fails e rfl critical⟩⟩
      · rename_i critical
        exact ih nodup pending' sound' (goesOn (.inr (eq_false_of_ne_true critical)))

end Monitord
