import UosTv.Lib.Effect

/-!
The init process (`inis/src/main.rs`), as a program over the operations that it issues, and
the processes that it forks.

Only what concerns processes is kept: of the mounts and files of `main` nothing but the time
they take. A forked child is seen from the parent, so `fork` is told what the child goes on
to execute. Loops that never end take the number of their turns; a run is then a prefix of
the real one. Durations are in milliseconds.
-/

namespace Inis

open Effect

/-- A process id. -/
abbrev Pid := Nat

/-- What a forked child executes: `monitord`, or a shell. -/
inductive Image where
  | monitord
  | shell
deriving DecidableEq, Repr

/-- The results of `waitpid`; `other` is every `Ok` without an exit, `echild` is `ECHILD`. -/
inductive WaitResult where
  | exited (pid : Pid) (code : Int)
  | signaled (pid : Pid) (signal : Nat)
  | other
  | echild
  | error (e : String)
deriving DecidableEq, Repr

inductive Signal where
  | sigterm
  | sigkill
deriving DecidableEq, Repr

/-- The operations. `exit` is never answered. -/
inductive Op where
  | harden
  | pathExists (path : String)
  | fork (image : Image)
  | exit (code : Nat)
  | sleep (duration : Nat)
  | waitpid
  | shutdownRequested
  | killAll (signal : Signal)
  | reboot
deriving DecidableEq

/-- The answers. A fork is answered by the pid of the child, unless it fails. -/
def Ans : Op → Type
  | .pathExists _ => Bool
  | .fork _ => Option Pid
  | .exit _ => Empty
  | .waitpid => WaitResult
  | .shutdownRequested => Bool
  | _ => Unit

abbrev M := Prog Op Ans

/-- Issues one operation. -/
def call (o : Op) : M (Ans o) := Prog.perform o

def pathExists (path : String) : M Bool := call (.pathExists path)

def fork (image : Image) : M (Option Pid) := call (.fork image)

def exit {α : Type} (code : Nat) : M α := .op (.exit code) fun never => never.elim

def sleep (duration : Nat) : M Unit := call (.sleep duration)

def waitpid : M WaitResult := call .waitpid

/-- `SHUTDOWN_REQUESTED`, which nothing in the program sets: left to the environment. -/
def shutdownRequested : M Bool := call .shutdownRequested

def killAll (signal : Signal) : M Unit := call (.killAll signal)

def reboot : M Unit := call .reboot

/-- `harden_rootfs`. -/
def harden : M Unit := call .harden

def secs (n : Nat) : Nat := n * 1000

/-! ### The program -/

/-- The parent's side of a fork; a fork that fails ends the program. -/
def forkOrExit (image : Image) : M Pid := do
  match ← fork image with
  | some child => pure child
  | none => exit 1

/-- `spawn_monitord`. Without the binary a shell is started. -/
def spawnMonitord : M Pid := do
  if ← pathExists "/usr/bin/monitord" then forkOrExit .monitord else forkOrExit .shell

/-- `MAX_RESTARTS`. -/
def maxRestarts : Nat := 5

/-- The loop in which `main_loop` ends when it has given up. -/
def reapForever : Nat → M Unit
  | 0 => pure ()
  | turns + 1 => do
    let _ ← waitpid
    sleep (secs 5)
    reapForever turns

/-- The shell that `main_loop` drops to. -/
def giveUp (turns : Nat) : M Unit := do
  let _ ← fork .shell
  reapForever turns

/-- The loop in which `do_shutdown` ends. -/
def haltForever : Nat → M Unit
  | 0 => pure ()
  | turns + 1 => do
    sleep (secs 1)
    haltForever turns

/-- `do_shutdown`. -/
def doShutdown (turns : Nat) : M Unit := do
  killAll .sigterm
  sleep (secs 2)
  killAll .sigkill
  sleep (secs 1)
  reboot
  haltForever turns

/-- The `match` on the result of `waitpid`: the new value of `monitord_pid`. -/
def observe (current : Pid) : WaitResult → M (Option Pid)
  | .exited pid _ => pure (if pid = current then none else some current)
  | .signaled pid _ => pure (if pid = current then none else some current)
  | .other => do
    sleep 100
    pure (some current)
  | .echild => do
    sleep (secs 1)
    pure none
  | .error _ => do
    sleep (secs 1)
    pure (some current)

/-- The restart of monitord; `count` is `restart_count` after it. -/
def restart (count : Nat) : M Pid := do
  sleep (secs (min (count * 2) 10))
  spawnMonitord

/-- The turns of `main_loop`, with `monitord_pid` and `restart_count`. -/
def turn : Nat → Option Pid → Nat → M Unit
  | 0, _, _ => pure ()
  | turns + 1, monitordPid, restartCount => do
    if monitordPid = none ∧ maxRestarts ≤ restartCount then giveUp turns
    else
      let current ← match monitordPid with
        | none => restart (restartCount + 1)
        | some current => pure current
      let count := if monitordPid = none then restartCount + 1 else restartCount
      let next ← observe current (← waitpid)
      if ← shutdownRequested then doShutdown turns else turn turns next count

/-- `main_loop`. -/
def mainLoop (turns : Nat) : M Unit := turn turns none 0

/-- `main`. The pid of the first monitord is only printed. -/
def main (turns : Nat) : M Unit := do
  let _ ← spawnMonitord
  harden
  mainLoop turns

/-! ### The processes -/

/-- A process that has been forked, and whether `waitpid` has said that it has ended. -/
structure Child where
  pid : Pid
  image : Image
  alive : Bool
  observed : Bool
deriving DecidableEq, Repr

/-- All processes that have been forked, the last one at the end. -/
structure World where
  children : List Child
deriving DecidableEq, Repr

/-- A choice of the environment: the processes that end meanwhile, whether the binary
exists, the pid of a new process, the result of `waitpid`, and whether a shutdown has been
requested. -/
structure Choice where
  exits : List Pid := []
  found : Bool := true
  forked : Option Pid := none
  waited : WaitResult := .other
  shutdown : Bool := false
deriving Repr

namespace World

def start : World := ⟨[]⟩

/-- The end of some processes. -/
def pass (w : World) (exits : List Pid) : World :=
  ⟨w.children.map fun c => if c.pid ∈ exits then { c with alive := false } else c⟩

def forked (w : World) (image : Image) (pid : Pid) : World :=
  ⟨w.children ++ [⟨pid, image, true, false⟩]⟩

/-- A result of `waitpid` is consistent with the processes: it reports no exit of a process
that is alive. It may report that of an orphan which has been adopted. -/
def Consistent (w : World) : WaitResult → Prop
  | .exited pid _ | .signaled pid _ => ∀ c ∈ w.children, c.alive = true → c.pid ≠ pid
  | .echild => ∀ c ∈ w.children, c.alive = false
  | .other | .error _ => True

instance (w : World) : (result : WaitResult) → Decidable (w.Consistent result)
  | .exited _ _ | .signaled _ _ | .echild => inferInstanceAs (Decidable (∀ _ ∈ _, _))
  | .other | .error _ => isTrue trivial

/-- What a result of `waitpid` says of a process. -/
def Reports : WaitResult → Child → Prop
  | .exited pid _, c | .signaled pid _, c => c.pid = pid
  | .echild, _ => True
  | .other, _ | .error _, _ => False

instance (c : Child) : (result : WaitResult) → Decidable (Reports result c)
  | .exited pid _ | .signaled pid _ => inferInstanceAs (Decidable (c.pid = pid))
  | .echild => isTrue trivial
  | .other | .error _ => isFalse id

def reported (w : World) (result : WaitResult) : World :=
  ⟨w.children.map fun c => if Reports result c then { c with observed := true } else c⟩

/-- At most one monitord is alive. -/
def AtMostOne (w : World) : Prop :=
  w.children.countP (fun c => c.image = .monitord ∧ c.alive = true) ≤ 1

instance (w : World) : Decidable w.AtMostOne := inferInstanceAs (Decidable (_ ≤ 1))

end World

/-- The answer of a fork; the pid of a process that is alive is not given again. -/
def actFork (w : World) (image : Image) : Option Pid → Option (Option Pid × World)
  | none => some (none, w)
  | some pid =>
    if ∃ c ∈ w.children, c.alive = true ∧ c.pid = pid then none
    else some (some pid, w.forked image pid)

/-- What an operation does. A fork takes no time; processes may end in all others. -/
def act : Machine Op Ans World Choice := fun w o choice =>
  match o with
  | .fork image => actFork w image choice.forked
  | .exit _ => none
  | .pathExists _ => some (choice.found, w.pass choice.exits)
  | .shutdownRequested => some (choice.shutdown, w.pass choice.exits)
  | .waitpid =>
    if (w.pass choice.exits).Consistent choice.waited then
      some (choice.waited, (w.pass choice.exits).reported choice.waited)
    else none
  | .harden => some ((), w.pass choice.exits)
  | .sleep _ => some ((), w.pass choice.exits)
  | .killAll _ => some ((), w.pass choice.exits)
  | .reboot => some ((), w.pass choice.exits)

end Inis
