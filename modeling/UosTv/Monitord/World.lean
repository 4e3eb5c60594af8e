import UosTv.Monitord.Supervisor
import UosTv.Rust.Collections

/-!
The world that the supervisor runs in.

`World` holds the clock, the two maps, the processes that have been spawned and not yet
reaped, and a log. `World.pass` is what happens without the supervisor: time goes by,
processes exit, and exited processes whose handle has been dropped are reaped. It comes
before every operation that reaches the operating system or sleeps; the accesses of the
maps, the clock and the log are atomic and take no time. `act` answers the operations.
-/

namespace Monitord

open Effect Rust

/-- A process that has been spawned and not reaped: whether its handle is still held, and
the exit code once it has exited. -/
structure Proc where
  id : ProcId
  service : String
  pid : Nat
  held : Bool
  exit : Option (Option Int)
deriving DecidableEq, Repr

/-- What the log says of a service. -/
inductive Entry where
  | spawned (name : String)
  | line (line : LogLine)
deriving DecidableEq, Repr

/-- The log has the newest entry first, each with its time. -/
structure World where
  now : Nat
  services : HashMap String ServiceRuntime
  failures : HashMap String Nat
  procs : List Proc
  nextId : ProcId
  log : List (Nat × Entry)

/-- A choice of the environment: the time that goes by, the processes that exit, the ones
that are reaped, the order in which a map is gone through, whether a path exists, the error
with which an operation fails if it does, and the pid of a new process. -/
structure Choice where
  elapsed : Nat := 0
  exits : List (ProcId × Option Int) := []
  reaped : List ProcId := []
  order : List String := []
  found : Bool := true
  failure : Option String := none
  pid : Nat := 0
deriving Inhabited

/-- The exit of a process, if it is among those that exit. -/
def Proc.exitBy (exits : List (ProcId × Option Int)) (p : Proc) : Proc :=
  match p.exit with
  | some _ => p
  | none => { p with exit := exits.lookup p.id }

/-- An exited process without a handle may be reaped. -/
def Proc.Reapable (reaped : List ProcId) (p : Proc) : Prop :=
  p.held = false ∧ p.exit ≠ none ∧ p.id ∈ reaped

instance (reaped : List ProcId) (p : Proc) : Decidable (p.Reapable reaped) :=
  inferInstanceAs (Decidable (_ ∧ _ ∧ _))

namespace World

/-- What happens meanwhile. -/
def pass (w : World) (choice : Choice) : World :=
  { w with
    now := w.now + choice.elapsed
    procs := (w.procs.map (Proc.exitBy choice.exits)).filter fun p => ¬ p.Reapable choice.reaped }

/-- The record of a service is written. -/
def put (w : World) (name : String) (svc : ServiceRuntime) : World :=
  { w with services := w.services.insert name svc }

def setFailures (w : World) (name : String) : Option Nat → World
  | none => { w with failures := w.failures.remove name }
  | some count => { w with failures := w.failures.insert name count }

def note (w : World) (entry : Entry) : World := { w with log := (w.now, entry) :: w.log }

def spawned (w : World) (name : String) (pid : Nat) : World :=
  { w with
    procs := w.procs ++ [⟨w.nextId, name, pid, true, none⟩]
    nextId := w.nextId + 1
    log := (w.now, .spawned name) :: w.log }

/-- A process is reaped. -/
def reap (w : World) (child : ProcId) : World :=
  { w with procs := w.procs.filter fun p => p.id ≠ child }

/-- The handle of a process is dropped. -/
def drop (w : World) (child : ProcId) : World :=
  { w with procs := w.procs.map fun p => if p.id = child then { p with held := false } else p }

def proc? (w : World) (child : ProcId) : Option Proc := w.procs.find? fun p => p.id = child

/-- The supervisor before the boot. -/
def init (services : List ServiceManifest) : World where
  now := 0
  services := HashMap.collect (services.map fun svc => (svc.name, .new svc))
  failures := ∅
  procs := []
  nextId := 0
  log := []

end World

/-- The answer of `try_wait`. -/
def actTryWait (w : World) (child : ProcId) (failure : Option String) :
    Option (Except String (Option (Option Int)) × World) :=
  match failure with
  | some e => some (.error e, w)
  | none =>
    match w.proc? child with
    | none => none
    | some p =>
      match p.exit with
      | none => some (.ok none, w)
      | some code => some (.ok (some code), w.reap child)

/-- The answer of a spawn; the pid of a process that is not reaped is not given again. -/
def actSpawn (w : World) (name : String) (choice : Choice) :
    Option (Except String (ProcId × Nat) × World) :=
  match choice.failure with
  | some e => some (.error e, w)
  | none =>
    if choice.pid ∈ w.procs.map (·.pid) then none
    else some (.ok (w.nextId, choice.pid), w.spawned name choice.pid)

/-- The answer of `wait`, which comes when the process has exited. -/
def actWait (w : World) (child : ProcId) : Option (Unit × World) :=
  match w.proc? child with
  | none => none
  | some p => if p.exit = none then none else some ((), w.reap child)

/-- What an operation does. -/
def act : Machine Op Ans World Choice := fun w o choice =>
  match o with
  | .acquire _ _ _ => some ((), w)
  | .release _ _ _ => some ((), w)
  | .names => if choice.order.Perm w.services.keys then some (choice.order, w) else none
  | .read name => some (w.services.get name, w)
  | .write name svc => some ((), w.put name svc)
  | .readFailures name => some (w.failures.get name, w)
  | .writeFailures name count => some ((), w.setFailures name count)
  | .unwrapNone => none
  | .now => some (w.now, w)
  | .sleep duration => if duration ≤ choice.elapsed then some ((), w.pass choice) else none
  | .pathExists _ _ => some (choice.found, w.pass choice)
  | .spawn name _ => actSpawn (w.pass choice) name choice
  | .tryWait _ child => actTryWait (w.pass choice) child choice.failure
  | .wait _ child => actWait (w.pass choice) child
  | .drop child => some ((), w.drop child)
  | .startKill _ _ => some ((), w.pass choice)
  | .kill _ _ _ => some ((), w.pass choice)
  | .probe _ _ _ => some (choice.failure.elim (.ok ()) .error, w.pass choice)
  | .log line => some ((), w.note (.line line))

end Monitord
