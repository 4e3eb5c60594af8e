import Mathlib.Data.Fintype.EquivFin
import UosTv.Monitord.Launch

/-!
Boots in which no process exits.

Whatever binaries exist and whichever spawns succeed, the boot can be run to its end
without any process exiting (`exists_quiet_boot`). A wait sleeps as long as it asks for, a
health check succeeds, and a new process gets a pid that is not in use.
-/

namespace Monitord

open Effect Rust

/-- What the environment decides in a boot. -/
structure BootInputs where
  present : String → Bool
  spawns : String → Bool

/-- The answers that are as decided. -/
def BootInputs.rely (o : BootInputs) (_ : World) : (op : Op) → Ans op → Prop
  | .pathExists name _, answer => answer = o.present name
  | .spawn name _, answer => Except.isOk answer = o.spawns name
  | _, _ => True

/-- No process has exited, and the services have their records. -/
structure World.Quiet (names : List String) (w : World) : Prop where
  known : w.Known names
  running : ∀ p ∈ w.procs, p.exit = none

namespace World.Quiet

variable {names : List String} {w : World} {name : String}

/-- Time goes by and nothing else happens. -/
theorem pass (quiet : w.Quiet names) {choice : Choice} (noExit : choice.exits = []) :
    (w.pass choice).Quiet names := by
  refine ⟨quiet.known, fun p mem => ?_⟩
  obtain ⟨q, before, rfl⟩ := World.mem_procs_pass mem
  rw [Proc.exitBy, quiet.running q before, noExit]
  rfl

theorem put (quiet : w.Quiet names) (name : String) (svc : ServiceRuntime) :
    (w.put name svc).Quiet names := by
  refine ⟨fun name' mem => ?_, quiet.running⟩
  by_cases same : name' = name
  · subst same
    exact ⟨svc, World.get_put_self⟩
  · rw [World.get_put_of_ne same]
    exact quiet.known name' mem

theorem spawned (quiet : w.Quiet names) (name : String) (pid : Nat) :
    (w.spawned name pid).Quiet names := by
  refine ⟨quiet.known, fun p mem => ?_⟩
  rcases List.mem_append.mp mem with mem | mem
  · exact quiet.running p mem
  · rw [List.mem_singleton.mp mem]

theorem drop (quiet : w.Quiet names) (child : ProcId) : (w.drop child).Quiet names := by
  refine ⟨quiet.known, fun p mem => ?_⟩
  obtain ⟨q, before, rfl⟩ := List.mem_map.mp mem
  split
  · exact quiet.running q before
  · exact quiet.running q before

end World.Quiet

/-! ### Operations -/

section Operations

variable {o : BootInputs} {G : World → Op → Prop} {w w' : World} {name : String} {map : MapName}
  {mode : Mode} {names : List String}

/-- An operation in which the environment has no choice. -/
theorem may_determined {op : Op} {answer : Ans op} {Q : Ans op → World → Prop}
    (answers : ∀ choice, act w op choice = some (answer, w')) (own : op.environmental = false) :
    may act (contract o.rely G) (call op) Q w ↔ Q answer w' := by
  constructor
  · rintro ⟨choice, answer', w'', done, -, post⟩
    rw [answers choice] at done
    cases done
    exact post
  · intro post
    refine ⟨default, answer, w', answers default, ?_, post⟩
    intro environmental
    rw [own] at environmental
    cases environmental

@[simp] theorem may_acquire {Q : Unit → World → Prop} :
    may act (contract o.rely G) (acquire map name mode) Q w ↔ Q () w :=
  may_determined (fun _ => rfl) rfl

@[simp] theorem may_release {Q : Unit → World → Prop} :
    may act (contract o.rely G) (release map name mode) Q w ↔ Q () w :=
  may_determined (fun _ => rfl) rfl

@[simp] theorem may_readService {Q : Option ServiceRuntime → World → Prop} :
    may act (contract o.rely G) (readService name) Q w ↔ Q (w.services.get name) w :=
  may_determined (fun _ => rfl) rfl

@[simp] theorem may_writeService {svc : ServiceRuntime} {Q : Unit → World → Prop} :
    may act (contract o.rely G) (writeService name svc) Q w ↔ Q () (w.put name svc) :=
  may_determined (fun _ => rfl) rfl

@[simp] theorem may_instantNow {Q : Nat → World → Prop} :
    may act (contract o.rely G) instantNow Q w ↔ Q w.now w :=
  may_determined (fun _ => rfl) rfl

@[simp] theorem may_dropHandle {child : ProcId} {Q : Unit → World → Prop} :
    may act (contract o.rely G) (dropHandle child) Q w ↔ Q () (w.drop child) :=
  may_determined (fun _ => rfl) rfl

theorem may_sleep {duration : Nat} {Q : Unit → World → Prop}
    (post : Q () (w.pass { elapsed := duration })) :
    may act (contract o.rely G) (sleep duration) Q w :=
  ⟨{ elapsed := duration }, (), _, if_pos le_rfl, (by rintro ⟨⟩), post⟩

theorem may_pathExists {path : String} {Q : Bool → World → Prop}
    (post : Q (o.present name) (w.pass { found := o.present name })) :
    may act (contract o.rely G) (pathExists name path) Q w :=
  ⟨{ found := o.present name }, _, _, rfl, fun _ => rfl, post⟩

theorem may_probe {periodic : Bool} {target : Probe} {Q : Except String Unit → World → Prop}
    (post : Q (.ok ()) (w.pass default)) :
    may act (contract o.rely G) (probe name periodic target) Q w :=
  ⟨default, _, _, rfl, fun _ => trivial, post⟩

theorem may_spawn {cmd : Command} {Q : Except String (ProcId × Nat) → World → Prop}
    (quiet : w.Quiet names)
    (failed : ∀ e w', w'.Quiet names → Q (.error e) w')
    (done : ∀ child pid w', w'.Quiet names → Q (.ok (child, pid)) w') :
    may act (contract o.rely G) (spawn name cmd) Q w := by
  cases spawns : o.spawns name with
  | false =>
    refine ⟨{ failure := some "" }, .error "", w.pass { failure := some "" }, rfl, ?_, ?_⟩
    · exact fun _ => spawns.symm
    · exact failed _ _ (quiet.pass rfl)
  | true =>
    obtain ⟨pid, fresh⟩ := Infinite.exists_notMem_finset
      ((w.pass default).procs.map (·.pid)).toFinset
    rw [List.mem_toFinset] at fresh
    refine ⟨{ pid }, .ok (w.nextId, pid), (w.pass { pid }).spawned name pid, if_neg fresh, ?_, ?_⟩
    · exact fun _ => spawns.symm
    · exact done _ _ _ ((quiet.pass rfl).spawned name pid)

end Operations

/-! ### The boot -/

section Boot

variable {o : BootInputs} {G : World → Op → Prop} {w : World} {name : String} {names : List String}

theorem may_getService {Q : Option ServiceRuntime → World → Prop} :
    may act (contract o.rely G) (getService name) Q w ↔ Q (w.services.get name) w := by
  simp [getService]

theorem may_updateService (quiet : w.Quiet names) (mem : name ∈ names)
    {update : ServiceRuntime → M ServiceRuntime}
    (body : ∀ svc, may act (contract o.rely G) (update svc) (fun _ w' => w'.Quiet names) w) :
    may act (contract o.rely G) (updateService name update) (fun _ w' => w'.Quiet names) w := by
  obtain ⟨svc, found⟩ := quiet.known name mem
  simp only [updateService, may_bind, may_acquire, may_readService, found, unwrap, may_pure,
    may_writeService, may_release]
  exact may_mono (body svc) fun svc' w' quiet' => quiet'.put name svc'

theorem may_waitLoop (quiet : w.Quiet names) (start turns : Nat) :
    may act (contract o.rely G) (waitLoop name start turns) (fun _ w' => w'.Quiet names) w := by
  induction turns generalizing w with
  | zero => exact quiet
  | succ turns ih =>
    simp only [waitLoop, may_bind, may_instantNow]
    split
    · exact quiet
    · simp only [statusOf, may_bind, may_getService, may_pure]
      split
      · exact quiet
      · exact quiet
      · exact quiet
      · rw [may_bind]
        apply may_sleep
        exact ih (quiet.pass rfl)

theorem may_waitAll (quiet : w.Quiet names) (deps : List String) :
    may act (contract o.rely G) (waitAll deps) (fun _ w' => w'.Quiet names) w := by
  induction deps generalizing w with
  | nil => exact quiet
  | cons dep deps ih =>
    simp only [waitAll, waitUntilRunning, may_bind, may_instantNow]
    apply may_mono (may_waitLoop quiet w.now 302)
    intro result w' quiet'
    cases result with
    | error e => exact quiet'
    | ok => exact ih quiet'

theorem may_checkHealth (quiet : w.Quiet names) (periodic : Bool) (method : String) :
    may act (contract o.rely G) (checkHealth periodic name method) (fun _ w' => w'.Quiet names) w := by
  unfold checkHealth
  split
  · exact quiet
  · exact may_probe (quiet.pass rfl)

theorem may_healthLoop (quiet : w.Quiet names) (method : String) (deadline cutoff turns : Nat) :
    may act (contract o.rely G) (healthLoop name method deadline cutoff turns)
      (fun _ w' => w'.Quiet names) w := by
  induction turns generalizing w with
  | zero => exact quiet
  | succ turns ih =>
    simp only [healthLoop, may_bind, may_instantNow]
    split
    · exact quiet
    · rw [may_bind]
      apply may_mono (may_checkHealth quiet false method)
      intro result w' quiet'
      cases result with
      | ok => exact quiet'
      | error e =>
        simp only [may_bind, may_instantNow]
        apply may_sleep
        split
        · exact quiet'.pass rfl
        · exact ih (quiet'.pass rfl)

theorem may_waitForHealth (quiet : w.Quiet names) (manifest : ServiceManifest) :
    may act (contract o.rely G) (waitForHealth manifest name) (fun _ w' => w'.Quiet names) w := by
  unfold waitForHealth
  split
  · exact quiet
  · simp only [may_bind, may_instantNow]
    exact may_healthLoop quiet _ _ _ _

theorem may_markStarting (quiet : w.Quiet names) (child : ProcId) (pid : Nat) (svc : ServiceRuntime) :
    may act (contract o.rely G) (markStarting child pid svc) (fun _ w' => w'.Quiet names) w := by
  simp only [markStarting, may_bind, may_instantNow, may_pure]
  unfold dropChild
  split
  · exact quiet
  · rw [may_dropHandle]
    exact quiet.drop _

theorem may_startService (quiet : w.Quiet names) (mem : name ∈ names) (busSocket : String) :
    may act (contract o.rely G) (startService busSocket name) (fun _ w' => w'.Quiet names) w := by
  obtain ⟨svc, found⟩ := quiet.known name mem
  simp only [startService, may_bind, may_getService, found]
  apply may_mono (may_waitAll quiet _)
  intro result w₁ quiet₁
  cases result with
  | error e => exact quiet₁
  | ok =>
    simp only [spawnService, may_bind]
    apply may_pathExists
    have quiet₂ : (w₁.pass { found := o.present name }).Quiet names := quiet₁.pass rfl
    split
    · rw [may_bind]
      apply may_spawn quiet₂
      · exact fun e w' quiet' => quiet'
      · intro child pid w' quiet'
        simp only [afterSpawn, may_bind]
        apply may_mono (may_updateService quiet' mem fun svc => may_markStarting quiet' child pid svc)
        intro _ w₃ quiet₃
        apply may_mono (may_waitForHealth quiet₃ _)
        intro _ w₄ quiet₄
        refine may_mono (may_updateService quiet₄ mem fun svc => ?_) ?_
        · exact quiet₄
        · exact fun _ w₅ quiet₅ => quiet₅
    · rw [may_bind]
      refine may_mono (may_updateService quiet₂ mem fun svc => ?_) ?_
      · exact quiet₂
      · exact fun _ w' quiet' => quiet'

theorem may_boot (quiet : w.Quiet names) (busSocket : String) {order : List String}
    (sub : ∀ name ∈ order, name ∈ names) :
    may act (contract o.rely G) (boot busSocket order) (fun _ w' => w'.Quiet names) w := by
  induction order generalizing w with
  | nil => exact quiet
  | cons name order ih =>
    obtain ⟨mem, sub⟩ := List.forall_mem_cons.mp sub
    simp only [boot, may_bind]
    apply may_mono (may_startService quiet mem busSocket)
    intro result w' quiet'
    cases result with
    | ok => exact ih quiet' sub
    | error e =>
      obtain ⟨svc, found⟩ := quiet'.known name mem
      simp only [may_bind, may_getService, found, unwrap, may_pure]
      split
      · exact quiet'
      · exact ih quiet' sub

theorem Launch.quiet_start (l : Launch) : l.start.Quiet l.order := by
  refine ⟨fun name mem => ?_, fun p mem => ?_⟩
  · obtain ⟨manifest, found⟩ := l.pending_start name mem
    exact ⟨_, found⟩
  · cases mem

/-- The boot can be run to its end without any process exiting. -/
theorem exists_quiet_boot (l : Launch) (busSocket : String) (o : BootInputs) :
    ∃ choices result w, exec act (boot busSocket l.order) l.start choices = some (result, w, []) ∧
      (∀ e ∈ trace act (boot busSocket l.order) l.start choices, e.Relied (relying o.rely)) ∧
      ∀ p ∈ w.procs, p.exit = none := by
  have can : may act (relying o.rely) (boot busSocket l.order) (fun _ w' => w'.Quiet l.order) l.start :=
    may_boot l.quiet_start busSocket fun _ mem => mem
  obtain ⟨choices, result, w, run, quiet', relied⟩ := exists_exec_of_may can
  exact ⟨choices, result, w, run, relied, quiet'.running⟩

end Boot

end Monitord
