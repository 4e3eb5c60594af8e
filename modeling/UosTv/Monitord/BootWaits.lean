import UosTv.Monitord.BootFailure

/-!
Waits for dependencies during the boot.

A service whose binary is missing is marked as failed, and a wait for it ends at once. The other
two ways in which a start ends with an error leave the service pending; a wait for it polls until
its 30 seconds are over. So starts fail cleanly iff in no turn of the boot they go wrong in one of
these two ways (`boot_failsCleanly_iff`).
-/

namespace Monitord

open DependencyOrder Effect Rust

/-- The operation does not wait for time to go by. -/
def Awake (_ : World) : Op → Prop
  | .sleep _ => False
  | _ => True

instance : Reads Awake where
  free _ o looks := by cases o <;> simp [Op.looksUp, Awake] at looks ⊢

/-- The boot gets to the turn that comes after those of the services in `before`. -/
def Reaches (l : Launch) (busSocket : String) (o : BootInputs) (before : List ServiceManifest)
    (w : World) : Prop :=
  ∃ choices left, exec act (boot busSocket (names before)) l.start choices = some (.ok (), w, left) ∧
    ∀ e ∈ trace act (boot busSocket (names before)) l.start choices, e.Relied (relying o.rely)

/-- In every turn of the boot, a start that ends with an error leaves the service marked as
failed, and the wait for what the service needs does not poll. -/
def FailsCleanly (l : Launch) (busSocket : String) (o : BootInputs) : Prop :=
  ∀ (before : List ServiceManifest) (m : ServiceManifest) (after : List ServiceManifest) (w : World),
    l.sorted = before ++ m :: after → Reaches l busSocket o before w →
    (∀ choices e w' left,
      exec act (startService busSocket m.name) w choices = some (.error e, w', left) →
      (∀ ev ∈ trace act (startService busSocket m.name) w choices, ev.Relied (relying o.rely)) →
      ∃ reason, w'.statusOf m.name = .failed reason) ∧
    ∀ svc, w.services.get m.name = some svc → ∀ choices,
      ∀ ev ∈ trace act (waitAll svc.manifest.dependencies) w choices, Awake ev.before ev.op

variable {l : Launch} {o : BootInputs} {before after : List ServiceManifest} {m : ServiceManifest}
  {w w' : World} {busSocket : String}

/-- A wait for services that run does not poll. -/
theorem wp_waitAll_awake {deps : List String} (up : w.AllRunning deps) :
    wp act (contract anyAnswer Awake) (waitAll deps) (fun _ _ => True) w := by
  induction deps with
  | nil => trivial
  | cons dep deps ih =>
    obtain ⟨here, up⟩ := List.forall_mem_cons.mp up
    simp only [waitAll, waitUntilRunning, wp_bind, wp_instantNow]
    exact wp_waitLoop_running here 301 (ih up)

/-- A start that ends with an error leaves the service failed iff the binary is what is missing. -/
theorem StartOutcome.failed_iff {e : String}
    (outcome : StartOutcome o.rely busSocket m.name (.new m) w (.error e) w')
    (found : w.services.get m.name = some (.new m)) :
    (∃ reason, w'.statusOf m.name = .failed reason) ↔
      w.AllRunning m.dependencies ∧ o.present m.name = false := by
  have pending : w.statusOf m.name = .pending := by rw [World.statusOf, found]; rfl
  cases outcome with
  | blocked down later =>
    apply iff_of_false
    · rw [later.statusOf, pending]
      rintro ⟨_, ⟨⟩⟩
    · exact fun both => down both.1
  | missing up path _ =>
    obtain ⟨v, isMissing⟩ := path
    apply iff_of_true
    · exact ⟨_, by rw [World.statusOf, World.get_put_self]; rfl⟩
    · exact ⟨up, isMissing.symm⟩
  | refused _ path _ later =>
    obtain ⟨v, isPresent⟩ := path
    apply iff_of_false
    · rw [later.statusOf, pending]
      rintro ⟨_, ⟨⟩⟩
    · exact fun both => Bool.false_ne_true (both.2.symm.trans isPresent.symm)

theorem wp_start_new (busSocket : String) (found : w.services.get m.name = some (.new m)) :
    wp act (relying o.rely) (startService busSocket m.name)
      (StartOutcome o.rely busSocket m.name (.new m) w) w :=
  wp_startService busSocket found rfl (not_looped_new m) fun _ _ => trivial

/-- What has come up when the boot gets to a turn. -/
theorem Reaches.booting (reaches : Reaches l busSocket o before w)
    (split : l.sorted = before ++ m :: after) :
    Booting l o before w ∧ w.services.get m.name = some (.new m) := by
  obtain ⟨choices, left, run, relied⟩ := reaches
  obtain ⟨-, ⟨-, booting, pending⟩ | ⟨⟨e, failed⟩, -⟩⟩ :=
    wp_exec (wp_boot_part l busSocket o split) run relied
  · exact ⟨booting, pending m List.mem_cons_self⟩
  · cases failed

/-- The boot can get to every turn before which the critical services come up. -/
theorem exists_reaches (l : Launch) (busSocket : String) (o : BootInputs)
    (split : l.sorted = before ++ m :: after)
    (critical : ∀ m' ∈ before, m'.critical = true → ComesUp l.services o m'.name) :
    ∃ w, Reaches l busSocket o before w ∧ w.Quiet l.order := by
  have sub : ∀ name ∈ names before, name ∈ l.order := by
    intro name mem
    rw [Launch.order, split, names, List.map_append]
    exact List.mem_append_left _ mem
  obtain ⟨choices, result, w, run, quiet, relied⟩ :=
    exists_exec_of_may (may_boot (o := o) l.quiet_start busSocket sub)
  obtain ⟨-, ⟨rfl, -⟩ | ⟨-, ⟨m', mem, isCritical, down⟩, -⟩⟩ :=
    wp_exec (wp_boot_part l busSocket o split) run relied
  · exact ⟨w, ⟨choices, [], run, relied⟩, quiet⟩
  · exact absurd (critical m' mem isCritical) down

/-- **Starts that fail.** For given binaries and outcomes of spawns: in every turn of every run of
the boot a start that ends with an error leaves the service marked as failed, and no wait for a
dependency polls, iff every service whose turn comes has all it needs, and its spawn succeeds if
its binary exists. -/
theorem boot_failsCleanly_iff (l : Launch) (busSocket : String) (o : BootInputs) :
    FailsCleanly l busSocket o ↔ ∀ (before : List ServiceManifest) (m : ServiceManifest)
      (after : List ServiceManifest), l.sorted = before ++ m :: after →
      (∀ m' ∈ before, m'.critical = true → ComesUp l.services o m'.name) →
      (∀ dep ∈ m.dependencies, ComesUp l.services o dep) ∧
        (o.present m.name = true → o.spawns m.name = true) := by
  constructor
  · intro clean before m after split critical
    obtain ⟨w, reaches, quiet⟩ := exists_reaches l busSocket o split critical
    obtain ⟨booting, found⟩ := reaches.booting split
    have mem : m.name ∈ l.order := by
      rw [Launch.order, split, names, List.map_append]
      exact List.mem_append_right _ List.mem_cons_self
    obtain ⟨choices, result, w', run, -, relied⟩ :=
      exists_exec_of_may (may_startService (o := o) (G := Allowed) quiet mem busSocket)
    have outcome := wp_exec (wp_start_new busSocket found) run relied
    rw [← booting.allRunning_iff split]
    cases result with
    | ok =>
      obtain ⟨-, spawns, up⟩ :=
        (outcome.ok_iff (fun _ _ _ answer => answer) fun _ _ _ answer => answer).mp rfl
      exact ⟨up, fun _ => spawns⟩
    | error e =>
      have failed := (clean before m after w split reaches).1 choices e w' [] run relied
      obtain ⟨up, missing⟩ := (outcome.failed_iff found).mp failed
      refine ⟨up, fun present => ?_⟩
      rw [missing] at present
      cases present
  · intro ready before m after w split reaches
    obtain ⟨booting, found⟩ := reaches.booting split
    obtain ⟨up, spawns⟩ := ready before m after split booting.critical
    rw [← booting.allRunning_iff split] at up
    constructor
    · intro choices e w' left run relied
      have outcome := wp_exec (wp_start_new busSocket found) run relied
      refine (outcome.failed_iff found).mpr ⟨up, Bool.eq_false_iff.mpr fun present => ?_⟩
      have started : Except.error e = .ok () :=
        (outcome.ok_iff (fun _ _ _ answer => answer) fun _ _ _ answer => answer).mpr
          ⟨present, spawns present, up⟩
      cases started
    · intro svc found' choices
      cases found.symm.trans found'
      exact wp_trace (wp_waitAll_awake up) fun ev _ => relied_anyAnswer ev

/-- Each service needs the one before it, and none is critical. -/
def chainServices : List ServiceManifest :=
  [.default "a" "/bin/a", { ServiceManifest.default "b" "/bin/b" with dependencies := ["a"] },
    { ServiceManifest.default "c" "/bin/c" with dependencies := ["b"] }]

def chainLaunch : Launch := (launch? .listed .listed chainServices).get (by decide)

/-- The binary of the first service is missing. The start of the second one ends with an error
and leaves it pending, and the wait of the third one polls. -/
theorem blocked_start_stays_pending : ∃ w w' e,
    exec act (boot "" ["a"]) chainLaunch.start (List.replicate 19 { found := false }) =
      some (.ok (), w, List.replicate 8 { found := false }) ∧
    exec act (startService "" "b") w (List.replicate 8 { found := false }) =
      some (.error e, w', []) ∧
    w'.statusOf "b" = .pending ∧
    ∃ ev ∈ trace act (waitAll ["b"]) w' (List.replicate 8 { elapsed := millis 100 }),
      ¬ Awake ev.before ev.op :=
  ⟨_, _, _, rfl, rfl, rfl, ⟨_, .sleep (millis 100), _⟩, List.mem_of_getElem? (i := 5) rfl, id⟩

end Monitord
