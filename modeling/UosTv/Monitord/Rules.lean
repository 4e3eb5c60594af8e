import UosTv.Monitord.World

/-!
The rules of the supervisor's operations.

Each operation has a rule for its weakest precondition. `World.Later` relates a world to
those in which more has happened without the supervisor; the loops that only wait
(`waitUntilRunning`, `waitForHealth`) end in a later world and say what they found.

`Allowed` is what the supervisor guarantees of every operation: what it spawns has no
process and is not in a crash loop, what it signals is a process of that service that it
holds, and a service in a crash loop stays in it. `relying` are the contracts that
guarantee this and rely on the environment.
-/

namespace Monitord

open Effect Rust

/-! ### What happens meanwhile -/

namespace World

variable {w w' w'' : World} {name : String}

/-- More has happened without the supervisor. -/
def Later : World → World → Prop := Relation.ReflTransGen fun w w' => ∃ choice, w.pass choice = w'

@[refl] theorem Later.refl : w.Later w := Relation.ReflTransGen.refl

theorem Later.pass (later : w.Later w') (choice : Choice) : w.Later (w'.pass choice) :=
  .tail later ⟨choice, rfl⟩

theorem Later.trans (first : w.Later w') (second : w'.Later w'') : w.Later w'' :=
  Relation.ReflTransGen.trans first second

/-- What `pass` keeps is kept. -/
theorem Later.keeps {P : World → Prop} (later : w.Later w')
    (pass : ∀ w choice, P w → P (w.pass choice)) (start : P w) : P w' := by
  induction later with
  | refl => exact start
  | tail _ step ih =>
    obtain ⟨choice, rfl⟩ := step
    exact pass _ choice ih

theorem Later.services (later : w.Later w') : w'.services = w.services :=
  later.keeps (P := fun v => v.services = w.services) (fun _ _ same => same) rfl

theorem Later.failures (later : w.Later w') : w'.failures = w.failures :=
  later.keeps (P := fun v => v.failures = w.failures) (fun _ _ same => same) rfl

theorem Later.nextId (later : w.Later w') : w'.nextId = w.nextId :=
  later.keeps (P := fun v => v.nextId = w.nextId) (fun _ _ same => same) rfl

theorem Later.log (later : w.Later w') : w'.log = w.log :=
  later.keeps (P := fun v => v.log = w.log) (fun _ _ same => same) rfl

theorem Later.now (later : w.Later w') : w.now ≤ w'.now :=
  later.keeps (P := fun v => w.now ≤ v.now) (fun _ _ le => Nat.le_trans le (Nat.le_add_right _ _)) le_rfl

/-- The status that others see of a service. -/
def statusOf (w : World) (name : String) : ServiceStatus :=
  (w.services.get name).elim (.failed "not found") (·.status)

theorem Later.statusOf (later : w.Later w') : w'.statusOf name = w.statusOf name := by
  rw [World.statusOf, later.services]
  rfl

theorem get_put {svc : ServiceRuntime} {name' : String} : (w.put name svc).services.get name' =
    if name' = name then some svc else w.services.get name' :=
  HashMap.get_insert _ _ _ _

@[simp] theorem get_put_self {svc : ServiceRuntime} :
    (w.put name svc).services.get name = some svc := by
  rw [get_put, if_pos rfl]

theorem get_put_of_ne {svc : ServiceRuntime} {name' : String} (other : name' ≠ name) :
    (w.put name svc).services.get name' = w.services.get name' := by
  rw [get_put, if_neg other]

/-- A process of a service that has not been reaped, and whose handle is held. -/
def Owns (w : World) (name : String) (child : ProcId) (pid : Nat) : Prop :=
  ∃ p ∈ w.procs, p.id = child ∧ p.service = name ∧ p.pid = pid ∧ p.held = true

end World

/-! ### Contracts -/

/-- The service should have a process. -/
def ServiceRuntime.Active (svc : ServiceRuntime) : Prop :=
  svc.status = .running ∨ svc.status = .starting

instance (svc : ServiceRuntime) : Decidable svc.Active := inferInstanceAs (Decidable (_ ∨ _))

/-- The service is in a crash loop. -/
def ServiceRuntime.Looped (svc : ServiceRuntime) : Prop := ∃ reason, svc.status = .crashedLoop reason

/-- What the supervisor guarantees of an operation. -/
def Allowed (w : World) : Op → Prop
  | .spawn name _ => ∃ svc, w.services.get name = some svc ∧ svc.child = none ∧ ¬ svc.Looped
  | .kill name pid _ => ∃ child, w.Owns name child pid
  | .startKill name child => ∃ pid, w.Owns name child pid
  | .write name svc' => ∀ svc, w.services.get name = some svc → svc.Looped → svc'.Looped
  | _ => True

/-- The operations whose answer, or whose time, is up to the environment. -/
def Op.environmental : Op → Bool
  | .names | .pathExists _ _ | .spawn _ _ | .tryWait _ _ | .probe _ _ _ | .log _ => true
  | _ => false

/-- The operations that something may be guaranteed of. -/
def Op.guarded : Op → Bool
  | .spawn _ _ | .kill _ _ _ | .startKill _ _ | .write _ _ => true
  | _ => false

/-- Nothing is guaranteed of the other operations. -/
class Permits (guarantee : World → Op → Prop) : Prop where
  free : ∀ w o, o.guarded = false → guarantee w o

instance : Permits Allowed where
  free w o := by cases o <;> simp [Op.guarded, Allowed]

/-- The operations that look something up: they change nothing and take no time. -/
def Op.looksUp : Op → Bool
  | .acquire _ _ _ | .release _ _ _ | .read _ | .readFailures _ | .now => true
  | _ => false

/-- Nothing is guaranteed of the operations that look something up. -/
class Reads (guarantee : World → Op → Prop) : Prop where
  free : ∀ w o, o.looksUp = true → guarantee w o

instance {guarantee : World → Op → Prop} [Permits guarantee] : Reads guarantee where
  free w o looks := Permits.free w o (by cases o <;> simp [Op.looksUp, Op.guarded] at looks ⊢)

/-- What is allowed is guaranteed, given `S` of what is spawned. -/
class Grants (guarantee : World → Op → Prop) (S : outParam (World → String → Prop)) : Prop
    extends Permits guarantee where
  allowed : ∀ w o, Allowed w o → (∀ name cmd, o = .spawn name cmd → S w name) → guarantee w o

instance : Grants Allowed fun _ _ => True where
  allowed _ _ allowed _ := allowed

/-- What is allowed, and `S` of what is spawned. -/
def AllowedWith (S : World → String → Prop) (w : World) (o : Op) : Prop :=
  Allowed w o ∧ ∀ name cmd, o = .spawn name cmd → S w name

instance (S : World → String → Prop) : Grants (AllowedWith S) S where
  free w o free := by
    refine ⟨Permits.free w o free, ?_⟩
    rintro name cmd rfl
    cases free
  allowed _ _ allowed spawns := ⟨allowed, spawns⟩

/-- The operation starts a process. -/
def Op.Spawns : Op → Prop
  | .spawn _ _ => True
  | _ => False

theorem Grants.of_allowed {G : World → Op → Prop} {S : World → String → Prop} [Grants G S]
    {w : World} {o : Op} (allowed : Allowed w o) (other : ¬ o.Spawns) : G w o := by
  apply Grants.allowed w o allowed
  rintro name cmd rfl
  exact absurd trivial other

/-- The contract that relies on `rely` where something is up to the environment. -/
def contract (rely : World → (o : Op) → Ans o → Prop) (guarantee : World → Op → Prop) :
    Contract Op Ans World where
  rely w o answer := o.environmental → rely w o answer
  guarantee := guarantee

/-- Nothing is relied on. -/
def anyAnswer : World → (o : Op) → Ans o → Prop := fun _ _ _ => True

theorem relied_anyAnswer {guarantee : World → Op → Prop} (e : Event Op Ans World) :
    e.Relied (contract anyAnswer guarantee) := fun _ _ _ => trivial

/-- The contracts that guarantee what the supervisor does. -/
abbrev relying (rely : World → (o : Op) → Ans o → Prop) : Contract Op Ans World :=
  contract rely Allowed

instance {rely : World → (o : Op) → Ans o → Prop} {guarantee : World → Op → Prop}
    [∀ w o answer, Decidable (rely w o answer)] :
    (e : Event Op Ans World) → Decidable (e.Relied (contract rely guarantee))
  | ⟨_, _, none⟩ => isTrue fun _ none => by cases none
  | ⟨w, o, some answer⟩ => decidable_of_iff (o.environmental = true → rely w o answer)
      ⟨fun relied _ isAnswer => Option.some.inj isAnswer ▸ relied, fun relied => relied answer rfl⟩

/-- Some world in which the answer is relied on. -/
def Answered (rely : World → (o : Op) → Ans o → Prop) (o : Op) (answer : Ans o) : Prop :=
  ∃ w, rely w o answer

/-! ### Operations -/

section Operations

variable {rely : World → (o : Op) → Ans o → Prop} {G : World → Op → Prop} {w w' : World}
  {name : String} {map : MapName} {mode : Mode}

theorem wp_call {o : Op} {Q : Ans o → World → Prop} :
    wp act (contract rely G) (call o) Q w ↔ G w o ∧ ∀ choice answer w',
      act w o choice = some (answer, w') → (o.environmental → rely w o answer) → Q answer w' :=
  Iff.rfl

/-- The rule of an operation in which the environment has no choice. -/
theorem wp_determined {o : Op} {answer : Ans o} {Q : Ans o → World → Prop}
    (answers : ∀ choice, act w o choice = some (answer, w')) (own : o.environmental = false) :
    wp act (contract rely G) (call o) Q w ↔ G w o ∧ Q answer w' :=
  Effect.wp_determined answers fun environmental =>
    absurd (own.symm.trans environmental) Bool.false_ne_true

@[simp] theorem wp_writeService {svc : ServiceRuntime} {Q : Unit → World → Prop} :
    wp act (contract rely G) (writeService name svc) Q w ↔
      G w (.write name svc) ∧ Q () (w.put name svc) :=
  wp_determined (fun _ => rfl) rfl

theorem wp_kill {pid : Nat} {signal : Signal} {Q : Unit → World → Prop}
    (allowed : G w (.kill name pid signal)) (post : ∀ choice, Q () (w.pass choice)) :
    wp act (contract rely G) (kill name pid signal) Q w := by
  refine wp_call.mpr ⟨allowed, ?_⟩
  rintro choice answer w' ⟨⟩ -
  exact post choice

theorem wp_startKill {child : ProcId} {Q : Unit → World → Prop}
    (allowed : G w (.startKill name child)) (post : ∀ choice, Q () (w.pass choice)) :
    wp act (contract rely G) (startKill name child) Q w := by
  refine wp_call.mpr ⟨allowed, ?_⟩
  rintro choice answer w' ⟨⟩ -
  exact post choice

theorem wp_spawn {cmd : Command} {Q : Except String (ProcId × Nat) → World → Prop}
    (allowed : G w (.spawn name cmd))
    (failed : ∀ e choice, rely w (.spawn name cmd) (.error e) → Q (.error e) (w.pass choice))
    (done : ∀ pid choice, rely w (.spawn name cmd) (.ok (w.nextId, pid)) →
      pid ∉ (w.pass choice).procs.map (·.pid) →
      Q (.ok (w.nextId, pid)) ((w.pass choice).spawned name pid)) :
    wp act (contract rely G) (spawn name cmd) Q w := by
  refine wp_call.mpr ⟨allowed, ?_⟩
  rintro choice answer w' acted relied
  simp only [act, actSpawn] at acted
  split at acted
  · cases acted
    exact failed _ choice (relied rfl)
  · split at acted
    · cases acted
    · cases acted
      exact done _ choice (relied rfl) ‹_›

/-! ### Operations that nothing is guaranteed of -/

section Reads

variable [Reads G]

theorem wp_lookup {o : Op} {answer : Ans o} {Q : Ans o → World → Prop} (looks : o.looksUp = true)
    (answers : ∀ choice, act w o choice = some (answer, w')) (own : o.environmental = false) :
    wp act (contract rely G) (call o) Q w ↔ Q answer w' :=
  (wp_determined answers own).trans (and_iff_right (Reads.free w o looks))

@[simp] theorem wp_acquire {Q : Unit → World → Prop} :
    wp act (contract rely G) (acquire map name mode) Q w ↔ Q () w :=
  wp_lookup rfl (fun _ => rfl) rfl

@[simp] theorem wp_release {Q : Unit → World → Prop} :
    wp act (contract rely G) (release map name mode) Q w ↔ Q () w :=
  wp_lookup rfl (fun _ => rfl) rfl

@[simp] theorem wp_readService {Q : Option ServiceRuntime → World → Prop} :
    wp act (contract rely G) (readService name) Q w ↔ Q (w.services.get name) w :=
  wp_lookup rfl (fun _ => rfl) rfl

@[simp] theorem wp_readFailures {Q : Option Nat → World → Prop} :
    wp act (contract rely G) (readFailures name) Q w ↔ Q (w.failures.get name) w :=
  wp_lookup rfl (fun _ => rfl) rfl

@[simp] theorem wp_instantNow {Q : Nat → World → Prop} :
    wp act (contract rely G) instantNow Q w ↔ Q w.now w :=
  wp_lookup rfl (fun _ => rfl) rfl

end Reads

variable [Permits G]

theorem wp_free {o : Op} {answer : Ans o} {Q : Ans o → World → Prop} (free : o.guarded = false)
    (answers : ∀ choice, act w o choice = some (answer, w')) (own : o.environmental = false) :
    wp act (contract rely G) (call o) Q w ↔ Q answer w' :=
  (wp_determined answers own).trans (and_iff_right (Permits.free w o free))

@[simp] theorem wp_writeFailures {count : Option Nat} {Q : Unit → World → Prop} :
    wp act (contract rely G) (writeFailures name count) Q w ↔
      Q () (w.setFailures name count) :=
  wp_free rfl (fun _ => rfl) rfl

@[simp] theorem wp_dropHandle {child : ProcId} {Q : Unit → World → Prop} :
    wp act (contract rely G) (dropHandle child) Q w ↔ Q () (w.drop child) :=
  wp_free rfl (fun _ => rfl) rfl

@[simp] theorem wp_logLine {line : LogLine} {Q : Unit → World → Prop} :
    wp act (contract rely G) (logLine line) Q w ↔
      (rely w (.log line) () → Q () (w.note (.line line))) := by
  refine wp_call.trans ⟨fun pre relied => ?_, fun post => ⟨Permits.free w _ rfl, ?_⟩⟩
  · exact pre.2 default () _ rfl fun _ => relied
  · rintro choice answer w' ⟨⟩ relied
    exact post (relied rfl)

theorem wp_serviceNames {Q : List String → World → Prop} :
    wp act (contract rely G) serviceNames Q w ↔
      ∀ names, names.Perm w.services.keys → rely w .names names → Q names w := by
  refine wp_call.trans ⟨fun pre names perm relied => ?_, fun post => ⟨Permits.free w _ rfl, ?_⟩⟩
  · exact pre.2 { order := names } names w (if_pos perm) fun _ => relied
  · rintro choice answer w' done relied
    simp only [act] at done
    split at done
    · cases done
      exact post _ ‹_› (relied rfl)
    · cases done

theorem wp_sleep {duration : Nat} {Q : Unit → World → Prop}
    (post : ∀ choice : Choice, duration ≤ choice.elapsed → Q () (w.pass choice)) :
    wp act (contract rely G) (sleep duration) Q w := by
  refine wp_call.mpr ⟨Permits.free w _ rfl, ?_⟩
  rintro choice answer w' done -
  simp only [act] at done
  split at done
  · cases done
    exact post choice ‹_›
  · cases done

theorem wp_pathExists {path : String} {Q : Bool → World → Prop}
    (post : ∀ found choice, rely w (.pathExists name path) found → Q found (w.pass choice)) :
    wp act (contract rely G) (pathExists name path) Q w := by
  refine wp_call.mpr ⟨Permits.free w _ rfl, ?_⟩
  rintro choice answer w' ⟨⟩ relied
  exact post _ choice (relied rfl)

theorem wp_probe {periodic : Bool} {target : Probe} {Q : Except String Unit → World → Prop}
    (post : ∀ result choice, rely w (.probe name periodic target) result → Q result (w.pass choice)) :
    wp act (contract rely G) (probe name periodic target) Q w := by
  refine wp_call.mpr ⟨Permits.free w _ rfl, ?_⟩
  rintro choice answer w' ⟨⟩ relied
  exact post _ choice (relied rfl)

theorem wp_tryWait {child : ProcId} {Q : Except String (Option (Option Int)) → World → Prop}
    (failed : ∀ e choice, rely w (.tryWait name child) (.error e) → Q (.error e) (w.pass choice))
    (running : ∀ choice, rely w (.tryWait name child) (.ok none) → Q (.ok none) (w.pass choice))
    (exited : ∀ code choice, rely w (.tryWait name child) (.ok (some code)) →
      Q (.ok (some code)) ((w.pass choice).reap child)) :
    wp act (contract rely G) (tryWait name child) Q w := by
  refine wp_call.mpr ⟨Permits.free w _ rfl, ?_⟩
  rintro choice answer w' acted relied
  simp only [act, actTryWait] at acted
  split at acted
  · cases acted
    exact failed _ choice (relied rfl)
  · split at acted
    · cases acted
    · split at acted
      · cases acted
        exact running choice (relied rfl)
      · cases acted
        exact exited _ choice (relied rfl)

theorem wp_wait {child : ProcId} {Q : Unit → World → Prop}
    (post : ∀ choice, Q () ((w.pass choice).reap child)) :
    wp act (contract rely G) (wait name child) Q w := by
  refine wp_call.mpr ⟨Permits.free w _ rfl, ?_⟩
  rintro choice answer w' acted -
  simp only [act, actWait] at acted
  split at acted
  · cases acted
  · split at acted
    · cases acted
    · cases acted
      exact post choice

end Operations

end Monitord
