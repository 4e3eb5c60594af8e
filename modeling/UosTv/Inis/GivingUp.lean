import UosTv.Inis.Init
import UosTv.Lib.Budget

/-!
How often `inis` starts monitord, over the whole of a run.

Nothing sets `restart_count` back, so five restarts are all there are, however long monitord has
run between them. After the shell that `main_loop` drops to, nothing but `waitpid` and the sleep
after it is issued, and so no request to shut down is noticed any more (`starts_bounded`).
-/

namespace Inis

open Effect

/-- The operation is a fork. -/
def Op.Forks : Op → Prop
  | .fork _ => True
  | _ => False

instance : DecidablePred Op.Forks
  | .fork _ => isTrue trivial
  | .harden | .pathExists _ | .exit _ | .sleep _ | .waitpid | .shutdownRequested | .killAll _
  | .reboot => isFalse id

/-- The operation is one of the loop in which `main_loop` ends. -/
def Op.Reaps (o : Op) : Prop := o = .waitpid ∨ o = .sleep (secs 5)

theorem Op.Reaps.not_forks {o : Op} (reaps : o.Reaps) : ¬ o.Forks := by
  rcases reaps with rfl | rfl
  · exact id
  · exact id

/-! ### What forks nothing -/

theorem issues_observe (current : Pid) (result : WaitResult) :
    Issues (fun o => ¬ o.Forks) (observe current result) := by
  cases result with
  | exited pid code | signaled pid signal => trivial
  | other | echild | error e => exact ⟨id, fun _ => trivial⟩

theorem issues_haltForever (turns : Nat) : Issues (fun o => ¬ o.Forks) (haltForever turns) := by
  induction turns with
  | zero => trivial
  | succ turns ih => exact ⟨id, fun _ => ih⟩

theorem issues_doShutdown (turns : Nat) : Issues (fun o => ¬ o.Forks) (doShutdown turns) :=
  ⟨id, fun _ => ⟨id, fun _ => ⟨id, fun _ => ⟨id, fun _ => ⟨id, fun _ => issues_haltForever turns⟩⟩⟩⟩⟩

theorem issues_reapForever (turns : Nat) : Issues Op.Reaps (reapForever turns) := by
  induction turns with
  | zero => trivial
  | succ turns ih => exact ⟨.inl rfl, fun _ => ⟨.inr rfl, fun _ => ih⟩⟩

/-! ### What forks -/

section Budgets

variable {G H : Op → Prop} {extra : Nat} (forks : ∀ o, G o → o.Forks)
include forks

theorem budget_forkOrExit (image : Image) :
    Budget G (fun o => ¬ G o) 1 (forkOrExit image) := by
  refine Budget.bind (n := 0) (fun _ => id) (budget_perform _) (fun _ _ => id) fun answer => ?_
  cases answer with
  | none => exact ⟨fun spends => forks _ spends, fun never => never.elim⟩
  | some child => trivial

theorem budget_spawnMonitord : Budget G (fun o => ¬ G o) 1 spawnMonitord := by
  have looks : Issues (fun o => ¬ o.Forks) (pathExists "/usr/bin/monitord") := ⟨id, fun _ => trivial⟩
  refine looks.bind_budget (fun o none spends => none (forks o spends)) nofun fun found => ?_
  split
  · exact budget_forkOrExit forks .monitord
  · exact budget_forkOrExit forks .shell

theorem budget_restart (count : Nat) : Budget G (fun o => ¬ G o) 1 (restart count) := by
  have waits : Issues (fun o => ¬ o.Forks) (sleep (secs (min (count * 2) 10))) :=
    ⟨id, fun _ => trivial⟩
  exact waits.bind_budget (fun o none spends => none (forks o spends)) nofun
    fun _ => budget_spawnMonitord forks

variable (given : ∀ turns, Budget G H extra (giveUp turns))
  (limited : extra = 0 → ∀ o, ¬ G o → H o)
include given limited

/-- A turn forks once at most, and then there is a restart less. -/
theorem budget_turn (turns : Nat) (monitordPid : Option Pid) (restartCount : Nat) :
    Budget G H (maxRestarts - restartCount + extra) (turn turns monitordPid restartCount) := by
  induction turns generalizing monitordPid restartCount with
  | zero => exact budget_pure ()
  | succ turns ih =>
    have free : ∀ o : Op, ¬ o.Forks → ¬ G o := fun o none spends => none (forks o spends)
    have rest : ∀ pid count, Budget G H (maxRestarts - count + extra) (do
        let next ← observe pid (← waitpid)
        if ← shutdownRequested then doShutdown turns else turn turns next count) := by
      intro pid count
      have limited' : maxRestarts - count + extra = 0 → ∀ o : Op, ¬ o.Forks → H o :=
        fun zero o none => limited (Nat.add_eq_zero_iff.mp zero).2 o (free o none)
      have waits : Issues (fun o => ¬ o.Forks) waitpid := ⟨id, fun _ => trivial⟩
      have asks : Issues (fun o => ¬ o.Forks) shutdownRequested := ⟨id, fun _ => trivial⟩
      refine waits.bind_budget free limited' fun result => ?_
      refine (issues_observe pid result).bind_budget free limited' fun next => ?_
      refine asks.bind_budget free limited' fun shutdown => ?_
      split
      · exact (issues_doShutdown turns).budget free limited'
      · exact ih next count
    rw [turn]
    split
    · rename_i full
      rw [Nat.sub_eq_zero_of_le full.2, Nat.zero_add]
      exact given turns
    · rename_i some
      cases monitordPid with
      | none =>
        have less : maxRestarts - restartCount + extra =
            1 + (maxRestarts - (restartCount + 1) + extra) := by
          have : restartCount < maxRestarts := Nat.lt_of_not_le fun full => some ⟨rfl, full⟩
          omega
        simp only [if_true]
        rw [less]
        exact (budget_restart forks _).bind (fun _ => id)
          (fun zero => limited (Nat.add_eq_zero_iff.mp zero).2) fun pid => rest pid _
      | some pid => exact rest pid _

theorem budget_main (turns : Nat) : Budget G H (1 + (maxRestarts + extra)) (main turns) := by
  have limited' : maxRestarts + extra = 0 → ∀ o, ¬ G o → H o :=
    fun zero => limited (Nat.add_eq_zero_iff.mp zero).2
  have hardens : Issues (fun o => ¬ o.Forks) harden := ⟨id, fun _ => trivial⟩
  refine (budget_spawnMonitord forks).bind (fun _ => id) limited' fun _ => ?_
  refine hardens.bind_budget (fun o none spends => none (forks o spends))
    (fun zero o none => limited' zero o fun spends => none (forks o spends)) fun _ => ?_
  exact budget_turn forks given limited turns none 0

end Budgets

/-- A run in which every monitord that `main_loop` forks ends at once. -/
def givenUp : List Choice :=
  let quiet : Choice := { found := true }
  [quiet, { forked := some 1 }, quiet] ++
    (List.range 5).flatMap (fun k => [quiet, quiet, { forked := some (k + 2) },
      { exits := [k + 2], waited := .exited (k + 2) 1 }, quiet]) ++ [{ forked := some 7 }]

/-- **Five restarts.** In every run of `main`, however long, monitord is forked six times at most,
and seven processes at most, which can happen (the commands that set up the network are not counted).
After the seventh fork nothing is issued but `waitpid` and the sleep after it: no restart, no
shutdown, and no question whether one has been requested. -/
theorem starts_bounded :
    (∀ (turns : Nat) (choices : List Choice),
      let run := trace act (main turns) .start choices
      spent (· = .fork .monitord) run ≤ 6 ∧ spent Op.Forks run ≤ 7 ∧
        ∀ before after, run = before ++ after → 7 ≤ spent Op.Forks before →
          ∀ e ∈ after, e.op.Reaps) ∧
    ∃ turns choices, spent (· = .fork .monitord) (trace act (main turns) .start choices) = 6 ∧
      spent Op.Forks (trace act (main turns) .start choices) = 7 := by
  constructor
  · intro turns choices run
    have last : ∀ turns, Budget Op.Forks Op.Reaps 1 (giveUp turns) := fun turns =>
      (budget_op trivial).mpr fun _ => budget_zero.mpr (issues_reapForever turns)
    have none : ∀ turns, Budget (· = .fork .monitord) (· ≠ .fork .monitord) 0 (giveUp turns) := by
      refine fun turns => budget_zero.mpr ⟨nofun, fun _ => (issues_reapForever turns).mono ?_⟩
      rintro _ reaps rfl
      exact reaps.not_forks trivial
    have all := budget_main (fun _ => id) last nofun turns
    have monitords := budget_main (by rintro _ rfl; trivial) none (fun _ _ => id) turns
    exact ⟨monitords.spent_le fun _ => id, all.spent_le (fun _ => Op.Reaps.not_forks),
      fun before after split => all.trace_after split⟩
  · exact ⟨6, givenUp, by decide, by decide⟩

end Inis
