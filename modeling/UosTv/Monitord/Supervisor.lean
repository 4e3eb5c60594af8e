import Mathlib.Algebra.Group.Nat.Defs
import UosTv.Lib.Effect
import UosTv.Monitord.Manifest
import UosTv.Rust.Text

/-!
The supervisor (`supervisor.rs`), as programs over the operations that it issues: on its
two maps, the clock, the operating system and the log.

A guard of a `DashMap` is taken by `acquire` and given back by `release` where its scope
ends, so the order of these operations is that of the source. Operations on behalf of one
service carry its name; the environment's answers can then be spoken of service by
service. Instants and durations are in nanoseconds. Of the log only the two lines that
report a failure are kept.
-/

namespace Monitord

open Effect Rust

/-- `ServiceStatus`. -/
inductive ServiceStatus where
  | pending
  | starting
  | running
  | failed (reason : String)
  | crashedLoop (reason : String)
  | stopped
deriving DecidableEq, Repr

/-- A spawned process, by the number of its spawn. A `Child` is a handle of one. -/
abbrev ProcId := Nat

/-- `ServiceRuntime`. `restart_count` is never changed or read. -/
structure ServiceRuntime where
  manifest : ServiceManifest
  status : ServiceStatus
  child : Option ProcId
  pid : Option Nat
  crashTimestamps : List Nat
  startedAt : Option Nat
deriving DecidableEq, Repr

/-- `ServiceRuntime::new`. -/
def ServiceRuntime.new (manifest : ServiceManifest) : ServiceRuntime where
  manifest
  status := .pending
  child := none
  pid := none
  crashTimestamps := []
  startedAt := none

/-- What is spawned: the `Command` that `start_service` builds. -/
structure Command where
  program : String
  args : List String
  env : List (String × String)
  keepCaps : List String
deriving DecidableEq, Repr

/-- What a health check connects to. -/
inductive Probe where
  | tcp (target : String)
  | rpc (method : String)
deriving DecidableEq, Repr

/-- The two `DashMap`s: `services`, and `failures` of `health_check_all`. -/
inductive MapName where
  | services
  | failures
deriving DecidableEq, Repr

inductive Mode where
  | shared
  | exclusive
deriving DecidableEq, Repr

inductive Signal where
  | sigterm
  | sigkill
deriving DecidableEq, Repr

/-- The log lines that report a failure. -/
inductive LogLine where
  | exited (name : String) (code : Option Int)
  | healthFailed (name : String)
deriving DecidableEq, Repr

/-- The operations. `unwrapNone` is a panic: it is never answered. `probe` is told whether
it belongs to a periodic check or to a wait at startup. -/
inductive Op where
  | acquire (map : MapName) (key : String) (mode : Mode)
  | release (map : MapName) (key : String) (mode : Mode)
  | names
  | read (name : String)
  | write (name : String) (svc : ServiceRuntime)
  | readFailures (name : String)
  | writeFailures (name : String) (count : Option Nat)
  | unwrapNone
  | now
  | sleep (duration : Nat)
  | pathExists (name path : String)
  | spawn (name : String) (cmd : Command)
  | tryWait (name : String) (child : ProcId)
  | wait (name : String) (child : ProcId)
  | drop (child : ProcId)
  | startKill (name : String) (child : ProcId)
  | kill (name : String) (pid : Nat) (signal : Signal)
  | probe (name : String) (periodic : Bool) (target : Probe)
  | log (line : LogLine)

/-- The answers. A spawn is answered by the process and its pid, `try_wait` by the exit
status, whose `code()` is `none` when a signal ended the process. -/
def Ans : Op → Type
  | .names => List String
  | .read _ => Option ServiceRuntime
  | .readFailures _ => Option Nat
  | .unwrapNone => Empty
  | .now => Nat
  | .pathExists _ _ => Bool
  | .spawn _ _ => Except String (ProcId × Nat)
  | .tryWait _ _ => Except String (Option (Option Int))
  | .probe _ _ _ => Except String Unit
  | _ => Unit

abbrev M := Prog Op Ans

/-- Issues one operation. -/
def call (o : Op) : M (Ans o) := Prog.perform o

def acquire (map : MapName) (key : String) (mode : Mode) : M Unit := call (.acquire map key mode)

def release (map : MapName) (key : String) (mode : Mode) : M Unit := call (.release map key mode)

def serviceNames : M (List String) := call .names

def readService (name : String) : M (Option ServiceRuntime) := call (.read name)

def writeService (name : String) (svc : ServiceRuntime) : M Unit := call (.write name svc)

def readFailures (name : String) : M (Option Nat) := call (.readFailures name)

def writeFailures (name : String) (count : Option Nat) : M Unit := call (.writeFailures name count)

def instantNow : M Nat := call .now

def sleep (duration : Nat) : M Unit := call (.sleep duration)

def pathExists (name path : String) : M Bool := call (.pathExists name path)

def spawn (name : String) (cmd : Command) : M (Except String (ProcId × Nat)) :=
  call (.spawn name cmd)

def tryWait (name : String) (child : ProcId) : M (Except String (Option (Option Int))) :=
  call (.tryWait name child)

def wait (name : String) (child : ProcId) : M Unit := call (.wait name child)

def dropHandle (child : ProcId) : M Unit := call (.drop child)

def startKill (name : String) (child : ProcId) : M Unit := call (.startKill name child)

def kill (name : String) (pid : Nat) (signal : Signal) : M Unit := call (.kill name pid signal)

def probe (name : String) (periodic : Bool) (target : Probe) : M (Except String Unit) :=
  call (.probe name periodic target)

def logLine (line : LogLine) : M Unit := call (.log line)

def secs (n : Nat) : Nat := n * 10 ^ 9

def millis (n : Nat) : Nat := n * 10 ^ 6

open Prog (forEach)

/-! ### The maps -/

/-- `unwrap()`. -/
def unwrap {α : Type} : Option α → M α
  | some a => pure a
  | none => .op .unwrapNone fun never => never.elim

/-- `services.get(name)`, whose guard is dropped at once. -/
def getService (name : String) : M (Option ServiceRuntime) := do
  acquire .services name .shared
  let svc ← readService name
  release .services name .shared
  pure svc

/-- `services.get_mut(name).unwrap()` in a block of its own that updates the record. -/
def updateService (name : String) (update : ServiceRuntime → M ServiceRuntime) : M Unit := do
  acquire .services name .exclusive
  let svc ← unwrap (← readService name)
  let svc ← update svc
  writeService name svc
  release .services name .exclusive

/-- `failures.remove(name)`. -/
def removeFailures (name : String) : M Unit := do
  acquire .failures name .exclusive
  writeFailures name none
  release .failures name .exclusive

/-- The old value of `svc.child` is dropped when a new one is assigned. -/
def dropChild : Option ProcId → M Unit
  | none => pure ()
  | some child => dropHandle child

/-! ### Starting a service -/

/-- The status of a service; that of an unknown one is `Failed("not found")`. -/
def statusOf (name : String) : M ServiceStatus := do
  let svc ← getService name
  pure (svc.elim (.failed "not found") (·.status))

/-- The loop of `wait_until_running`, begun at `start`. A turn that goes on takes at least
100 ms, so the 302nd turn would find the 30 seconds over. -/
def waitLoop (name : String) (start : Nat) : Nat → M (Except String Unit)
  | 0 => pure (.error ("Timeout waiting for " ++ name))
  | turns + 1 => do
    let now ← instantNow
    if secs 30 < now - start then pure (.error ("Timeout waiting for " ++ name))
    else
      match ← statusOf name with
      | .running => pure (.ok ())
      | .failed reason => pure (.error ("Dependency " ++ name ++ " failed: " ++ reason))
      | .crashedLoop _ => pure (.error ("Dependency " ++ name ++ " crashed-loop"))
      | _ => do
        sleep (millis 100)
        waitLoop name start turns

/-- `wait_until_running`. -/
def waitUntilRunning (name : String) : M (Except String Unit) := do
  let start ← instantNow
  waitLoop name start 302

/-- The dependencies of a service, one after the other. -/
def waitAll : List String → M (Except String Unit)
  | [] => pure (.ok ())
  | dep :: deps => do
    match ← waitUntilRunning dep with
    | .error e => pure (.error e)
    | .ok () => waitAll deps

/-- What `check_health` connects to. The method `"process"`, the empty and every unknown
method have nothing to connect to. -/
def probeOf (method : String) : Option Probe :=
  match stripPrefix method "tcp:" with
  | some addr => some (.tcp (if ':' ∈ addr.toList then addr else "127.0.0.1:" ++ addr))
  | none =>
    match stripPrefix method "rpc:" with
    | some rpcMethod => some (.rpc rpcMethod)
    | none => if startsWith method "stardust." then some (.rpc method) else none

/-- `check_health`. -/
def checkHealth (periodic : Bool) (name method : String) : M (Except String Unit) :=
  match probeOf method with
  | none => pure (.ok ())
  | some target => probe name periodic target

/-- The loop of `wait_for_health` inside its `timeout`, which ends at `cutoff`. Its result
is only logged. A turn that goes on takes a second, unless the timeout ends it. -/
def healthLoop (name method : String) (deadline cutoff : Nat) : Nat → M Unit
  | 0 => pure ()
  | turns + 1 => do
    let now ← instantNow
    if deadline < now then pure ()
    else
      match ← checkHealth false name method with
      | .ok () => pure ()
      | .error _ => do
        let now ← instantNow
        sleep (min (secs 1) (cutoff - now))
        let now ← instantNow
        if cutoff ≤ now then pure () else healthLoop name method deadline cutoff turns

/-- The health check of `start_service`, if the manifest has one. -/
def waitForHealth (manifest : ServiceManifest) (name : String) : M Unit :=
  match manifest.healthCheck with
  | none => pure ()
  | some method => do
    let now ← instantNow
    healthLoop name method (now + secs 30) (now + secs manifest.startupTimeoutSecs) 32

/-- The command of a service. -/
def command (busSocket : String) (manifest : ServiceManifest) : Command where
  program := manifest.binary
  args := manifest.args
  env := manifest.env.filterMap (splitOnce · '=') ++
    [("UOS_SERVICE_NAME", manifest.name), ("STARDUST_SOCKET", busSocket), ("UOS_LOG", "info")]
  keepCaps := manifest.capsKeep

/-- The record of a service whose process has been spawned. -/
def markStarting (child : ProcId) (pid : Nat) (svc : ServiceRuntime) : M ServiceRuntime := do
  dropChild svc.child
  let now ← instantNow
  pure { svc with status := .starting, child := some child, pid := some pid, startedAt := some now }

/-- What follows a successful spawn. -/
def afterSpawn (name : String) (manifest : ServiceManifest) (child : ProcId) (pid : Nat) :
    M (Except String Unit) := do
  updateService name (markStarting child pid)
  waitForHealth manifest name
  updateService name fun svc => pure { svc with status := .running }
  pure (.ok ())

/-- The part of `start_service` after its dependencies. -/
def spawnService (busSocket name : String) (manifest : ServiceManifest) :
    M (Except String Unit) := do
  if ← pathExists name manifest.binary then
    match ← spawn name (command busSocket manifest) with
    | .error e => pure (.error ("Failed to spawn " ++ manifest.binary ++ ": " ++ e))
    | .ok (child, pid) => afterSpawn name manifest child pid
  else do
    updateService name fun svc =>
      pure { svc with status := .failed ("binary not found: " ++ manifest.binary) }
    pure (.error (name ++ ": binary not found"))

/-- `start_service`. -/
def startService (busSocket name : String) : M (Except String Unit) := do
  match ← getService name with
  | none => pure (.error "service not found")
  | some svc =>
    match ← waitAll svc.manifest.dependencies with
    | .error e => pure (.error e)
    | .ok () => spawnService busSocket name svc.manifest

/-- `boot`, of which the services in the list are still to be started. -/
def boot (busSocket : String) : List String → M (Except String Unit)
  | [] => pure (.ok ())
  | name :: order => do
    match ← startService busSocket name with
    | .ok () => boot busSocket order
    | .error e => do
      let svc ← unwrap (← getService name)
      if svc.manifest.critical then
        pure (.error ("Critical service '" ++ name ++ "' failed to start: " ++ e))
      else boot busSocket order

/-! ### Monitoring -/

/-- The `match` on the restart policy. -/
def shouldRestart (restart : RestartPolicy) (code : Option Int) : Bool :=
  match restart with
  | .always => true
  | .onFailure => code ≠ some 0
  | .never => false

/-- `{code:?}`. -/
def debugCode : Option Int → String
  | none => "None"
  | some code => "Some(" ++ toString code ++ ")"

/-- The record of a service whose exit has just been found. -/
def ServiceRuntime.recordExit (svc : ServiceRuntime) (now : Nat) (code : Option Int) :
    ServiceRuntime :=
  { svc with
    status := .failed ("exit code: " ++ debugCode code)
    child := none
    crashTimestamps := (svc.crashTimestamps ++ [now]).filter fun t =>
      now - t < secs svc.manifest.crashWindowSecs }

/-- More crashes in the window than the manifest allows. -/
def ServiceRuntime.crashLooping (svc : ServiceRuntime) : Bool :=
  svc.manifest.maxCrashCount < svc.crashTimestamps.length

/-- The decision about a service whose exit has been recorded: its record, and whether it is
put on the list of services to restart. -/
def decideExit (svc : ServiceRuntime) (code : Option Int) : ServiceRuntime × Bool :=
  if svc.crashLooping then
    ({ svc with status := .crashedLoop (toString svc.crashTimestamps.length ++ " crashes in " ++
        toString svc.manifest.crashWindowSecs ++ "s") }, false)
  else if shouldRestart svc.manifest.restart code then (svc, true)
  else ({ svc with status := .stopped }, false)

/-- What `try_wait` has found of the child of `svc`, in whose guard this runs. -/
def handleTryWait (name : String) (svc : ServiceRuntime) (child : ProcId) :
    Except String (Option (Option Int)) → M (List (String × Nat))
  | .ok (some code) => do
    logLine (.exited name code)
    dropChild (some child)
    let now ← instantNow
    let decision := decideExit (svc.recordExit now code) code
    writeService name decision.1
    pure (if decision.2 then [(name, svc.manifest.restartDelayMs)] else [])
  | .ok none => pure []
  | .error _ => pure []

/-- The check of a service that should have a process. -/
def checkChild (name : String) : M (List (String × Nat)) := do
  acquire .services name .exclusive
  let svc ← unwrap (← readService name)
  let restart ← match svc.child with
    | none => pure []
    | some child => do handleTryWait name svc child (← tryWait name child)
  release .services name .exclusive
  pure restart

/-- One turn of the first loop of `monitor_services`; the item of the iterator is held. -/
def checkService (name : String) : M (List (String × Nat)) := do
  acquire .services name .shared
  let entry ← unwrap (← readService name)
  let restart ← if entry.status = .running ∨ entry.status = .starting then checkChild name
    else pure []
  release .services name .shared
  pure restart

/-- The first loop of `monitor_services`: the services to restart. -/
def collectRestarts : List String → M (List (String × Nat))
  | [] => pure []
  | name :: names => do
    let here ← checkService name
    let later ← collectRestarts names
    pure (here ++ later)

/-- `monitor_services`. The delay of a service to restart is not used. -/
def monitorServices (busSocket : String) : M Unit := do
  let names ← serviceNames
  let toRestart ← collectRestarts names
  forEach toRestart fun restart => do
    let _ ← startService busSocket restart.1
    pure ()

/-! ### Health checks -/

/-- The signals of `kill_service`. -/
def signalPid (name : String) : Option Nat → M Unit
  | none => pure ()
  | some pid => do
    kill name pid .sigterm
    sleep (millis 500)
    kill name pid .sigkill

/-- `child.start_kill()`, if there is a child; the child is dropped. -/
def killChild (name : String) : Option ProcId → M Unit
  | none => pure ()
  | some child => do
    startKill name child
    dropHandle child

/-- `kill_service`. -/
def killService (name : String) : M Unit := do
  let svc ← getService name
  signalPid name (svc.bind (·.pid))
  acquire .services name .exclusive
  match ← readService name with
  | none => release .services name .exclusive
  | some svc => do
    killChild name svc.child
    writeService name { svc with child := none, pid := none }
    release .services name .exclusive

def maxHealthFailures : Nat := 3

/-- The restart of a service whose health check has failed too often with reason `e`. -/
def restartUnhealthy (busSocket name e : String) : M Unit := do
  logLine (.healthFailed name)
  removeFailures name
  killService name
  acquire .services name .exclusive
  let svc ← unwrap (← readService name)
  writeService name { svc with status := .failed ("health: " ++ e) }
  release .services name .exclusive
  sleep (millis svc.manifest.restartDelayMs)
  let _ ← startService busSocket name
  pure ()

/-- What follows a health check of a service. The entry of `failures` that counts its
failures is held to the end. -/
def handleHealth (busSocket name : String) : Except String Unit → M Unit
  | .ok () => removeFailures name
  | .error e => do
    acquire .failures name .exclusive
    let count := (← readFailures name).elim 1 (· + 1)
    writeFailures name (some count)
    if maxHealthFailures ≤ count then restartUnhealthy busSocket name e else pure ()
    release .failures name .exclusive

/-- The method of a periodic health check, if one is to be made. -/
def ServiceRuntime.healthMethod (svc : ServiceRuntime) : Option String :=
  if svc.status = .running then svc.manifest.healthCheck.filter (· ≠ "") else none

/-- One turn of the loop of `health_check_all`; the item of the iterator is held. -/
def checkServiceHealth (busSocket name : String) : M Unit := do
  acquire .services name .shared
  let entry ← unwrap (← readService name)
  match entry.healthMethod with
  | none => pure ()
  | some method => do handleHealth busSocket name (← checkHealth true name method)
  release .services name .shared

/-- `health_check_all`. -/
def healthCheckAll (busSocket : String) : M Unit := do
  let names ← serviceNames
  forEach names (checkServiceHealth busSocket)

/-! ### Shutdown -/

/-- `SIGTERM` or `SIGKILL` to the recorded pid, if there is one. -/
def signalRecorded (name : String) (signal : Signal) : Option Nat → M Unit
  | none => pure ()
  | some pid => kill name pid signal

/-- What `try_wait` says two seconds after the `SIGTERM`. -/
def finishStop (name : String) (pid : Option Nat) (child : ProcId) :
    Except String (Option (Option Int)) → M Unit
  | .ok none => do
    signalRecorded name .sigkill pid
    wait name child
  | _ => pure ()

/-- Stops the child of a service, if it has one. -/
def stopChild (name : String) (pid : Option Nat) (svc : ServiceRuntime) : M ServiceRuntime :=
  match svc.child with
  | none => pure svc
  | some child => do
    signalRecorded name .sigterm pid
    sleep (secs 2)
    finishStop name pid child (← tryWait name child)
    dropHandle child
    pure { svc with status := .stopped, child := none }

/-- One turn of the loop of `shutdown_all`. -/
def stopService (name : String) : M Unit := do
  let svc ← getService name
  updateService name (stopChild name (svc.bind (·.pid)))

/-- `shutdown_all`: the startup order, backwards. -/
def shutdownAll (order : List String) : M Unit := forEach order.reverse stopService

/-! ### Runs -/

/-- The passes of the loop of `run`. -/
inductive Pass where
  | monitor
  | health
  | shutdown
deriving DecidableEq, Repr

def runPass (busSocket : String) (order : List String) : Pass → M Unit
  | .monitor => monitorServices busSocket
  | .health => healthCheckAll busSocket
  | .shutdown => shutdownAll order

/-- The boot, and then passes in any order; a boot that fails ends the supervisor. -/
def supervise (busSocket : String) (order : List String) (passes : List Pass) :
    M (Except String Unit) := do
  match ← boot busSocket order with
  | .error e => pure (.error e)
  | .ok () => do
    forEach passes (runPass busSocket order)
    pure (.ok ())

end Monitord
