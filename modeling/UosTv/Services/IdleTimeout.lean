import UosTv.Lib.Watch
import UosTv.Rust.Numbers
import UosTv.Services.Notifd

/-!
The loop of `powermand` (`main`), with the commands it obeys meanwhile.

Nothing sets `last_activity` again, so the idle time only grows, and with it the state: after the
start a status is published at most twice, of the dimmed and then of the suspended state, and none
says that the device is active (`idle_statuses`).
-/

namespace Rust

/-- `a * b` of two `u64`. -/
def mulU64 (checks : Bool) (a b : UInt64) : Option UInt64 :=
  if checks ∧ 2 ^ 64 ≤ a.toNat * b.toNat then none else some (a * b)

end Rust

namespace Powermand

open Rust SerdeJson Stardust Watch

namespace PowerState

/-- How far the device has gone. -/
def rank : PowerState → Nat
  | .active => 0
  | .dimmed => 1
  | .suspended => 2

theorem rank_injective : Function.Injective rank := by
  intro a b same
  cases a <;> cases b <;> first | rfl | cases same

instance : PartialOrder PowerState := PartialOrder.lift rank rank_injective

theorem le_iff {a b : PowerState} : a ≤ b ↔ a.rank ≤ b.rank := Iff.rfl

theorem active_le (a : PowerState) : .active ≤ a := Nat.zero_le _

/-- The state after `idle` seconds, where `twice` is twice the timeout. -/
def next (timeout twice idle : UInt64) : PowerState :=
  if idle > twice then .suspended
  else if idle > timeout then .dimmed
  else .active

end PowerState

open PowerState

/-- What a command does. -/
inductive Deed where
  | reboot
  | shutdown
  | suspend
deriving DecidableEq, Repr

/-- The task of the commands. -/
def obey (method : String) : Option Deed :=
  match method with
  | "power.command.reboot" => some .reboot
  | "power.command.shutdown" => some .shutdown
  | "power.command.suspend" => some .suspend
  | _ => none

/-- A turn of the loop that finds the device idle for some seconds, or a command. -/
inductive Step where
  | turn (idle : UInt64)
  | command (method : String)

def Step.idle? : Step → Option UInt64
  | .turn idle => some idle
  | .command _ => none

def Step.deed? : Step → Option Deed
  | .turn _ => none
  | .command method => obey method

/-- The state of the loop with the statuses it has published, each with its idle time, and what the
commands have done, the last first. The bus is taken to be there, and the task that sends a status
to run before the next one is spawned. -/
structure Daemon where
  power : Watcher UInt64 PowerState
  deeds : List Deed

namespace Daemon

def start : Daemon := ⟨⟨.active, []⟩, []⟩

/-- A turn ends the program where the doubled timeout overflows and that is checked. -/
def step (checks : Bool) (timeout : UInt64) (d : Daemon) : Step → Option Daemon
  | .turn idle =>
    match mulU64 checks timeout 2 with
    | some twice => some { d with power := d.power.see (next timeout twice) idle }
    | none => none
  | .command method => some { d with deeds := (obey method).toList ++ d.deeds }

/-- After steps, the newest first. -/
def run (checks : Bool) (timeout : UInt64) : List Step → Option Daemon
  | [] => some start
  | s :: earlier => (run checks timeout earlier).bind fun d => d.step checks timeout s

end Daemon

/-- The idle times that the loop has seen. -/
def idleTimes (steps : List Step) : List UInt64 := steps.filterMap Step.idle?

/-- The state that the loop makes of an idle time, when twice the timeout wraps. -/
def stateAfter (timeout : UInt64) : UInt64 → PowerState := next timeout (timeout * 2)

section Runs

variable {checks : Bool} {timeout : UInt64} {steps : List Step}

/-- The loop stops at its first turn, or runs as a watcher of the idle time. -/
theorem run_eq : Daemon.run checks timeout steps =
    if checks = true ∧ 2 ^ 63 ≤ timeout.toNat ∧ idleTimes steps ≠ [] then none
    else some ⟨watch (stateAfter timeout) .active (idleTimes steps), steps.filterMap Step.deed?⟩ := by
  induction steps with
  | nil => rw [if_neg fun stops => stops.2.2 rfl]; rfl
  | cons s earlier ih =>
    rw [Daemon.run, ih]
    cases s with
    | command method =>
      have times : idleTimes (.command method :: earlier) = idleTimes earlier := rfl
      rw [times]
      split
      · rfl
      · rw [Option.bind_some, Daemon.step, List.filterMap_cons, Step.deed?]
        cases obey method <;> rfl
    | turn idle =>
      have times : idleTimes (.turn idle :: earlier) = idle :: idleTimes earlier := rfl
      have twice : mulU64 checks timeout 2 =
          if checks = true ∧ 2 ^ 63 ≤ timeout.toNat then none else some (timeout * 2) := by
        have two : (2 : UInt64).toNat = 2 := rfl
        rw [mulU64, two]
        congr 1
        simp only [eq_iff_iff, and_congr_right_iff]
        omega
      rw [times]
      by_cases overflows : checks = true ∧ 2 ^ 63 ≤ timeout.toNat
      · have stops : checks = true ∧ 2 ^ 63 ≤ timeout.toNat ∧ idle :: idleTimes earlier ≠ [] :=
          ⟨overflows.1, overflows.2, List.cons_ne_nil _ _⟩
        rw [if_pos stops]
        split
        · rfl
        · rw [Option.bind_some, Daemon.step, twice, if_pos overflows]
      · rw [if_neg fun stops => overflows ⟨stops.1, stops.2.1⟩,
          if_neg fun stops => overflows ⟨stops.1, stops.2.1⟩, Option.bind_some, Daemon.step, twice,
          if_neg overflows]
        rfl

/-- More idle time never leads back, even if twice the timeout wraps. -/
theorem stateAfter_le (a b : UInt64) (later : a ≥ b) : stateAfter timeout b ≤ stateAfter timeout a := by
  have le : b.toNat ≤ a.toNat := UInt64.le_iff_toNat_le.mp later
  rw [PowerState.le_iff, stateAfter, next, next]
  simp only [gt_iff_lt, UInt64.lt_iff_toNat_lt]
  split_ifs <;> simp only [rank] <;> omega

/-- Without overflow the state is that of the thresholds. -/
theorem stateAfter_eq_afterIdle (fits : timeout.toNat < 2 ^ 63) (idle : UInt64) :
    stateAfter timeout idle = afterIdle timeout.toNat idle.toNat := by
  have twice : (timeout * 2).toNat = timeout.toNat * 2 := by
    have two : (2 : UInt64).toNat = 2 := rfl
    rw [UInt64.toNat_mul, two]
    exact Nat.mod_eq_of_lt (by omega)
  simp only [stateAfter, next, afterIdle, gt_iff_lt, UInt64.lt_iff_toNat_lt, twice]

/-- There are only so many states to go through. -/
theorem sublist_of_decreasing {states : List PowerState}
    (decreasing : (states ++ [PowerState.active]).Pairwise (· > ·)) :
    states.Sublist [.suspended, .dimmed] := by
  have deeper : ∀ a ∈ states, 0 < a.rank := fun a mem =>
    (List.pairwise_append.mp decreasing).2.2 a mem .active List.mem_cons_self
  have shallow : ∀ a : PowerState, a.rank ≤ 2 := by
    rintro (_ | _ | _) <;> decide
  have pairs := (List.pairwise_append.mp decreasing).1
  match states with
  | [] => exact List.nil_sublist _
  | [.active] => exact absurd (deeper _ List.mem_cons_self) (by decide)
  | [.dimmed] => decide
  | [.suspended] => decide
  | a :: b :: rest =>
    have first : b.rank < a.rank := (List.pairwise_cons.mp pairs).1 b List.mem_cons_self
    have some := deeper b (by simp)
    have most := shallow a
    cases rest with
    | nil =>
      obtain rfl : a = .suspended := rank_injective (show a.rank = 2 by omega)
      obtain rfl : b = .dimmed := rank_injective (show b.rank = 1 by omega)
      exact List.Sublist.refl _
    | cons c rest =>
      have second : c.rank < b.rank :=
        (List.pairwise_cons.mp (List.pairwise_cons.mp pairs).2).1 c List.mem_cons_self
      have least := deeper c (by simp)
      omega

end Runs

/-- **The statuses of `powermand`.** The program ends by itself only where twice the timeout
overflows and that is checked. Otherwise the state is that of the newest idle time, and what has
been published, the last first, is a part of the suspended and the dimmed state, up to the state
in force. Commands do what they say, in their order, and change no status. -/
theorem idle_statuses (formats : Formats) (checks : Bool) (timeout : UInt64) (steps : List Step)
    (growing : (idleTimes steps).Pairwise (· ≥ ·)) :
    (Daemon.run checks timeout steps = none ↔
      checks = true ∧ 2 ^ 63 ≤ timeout.toNat ∧ idleTimes steps ≠ []) ∧
    (timeout.toNat < 2 ^ 63 →
      ∀ idle, stateAfter timeout idle = afterIdle timeout.toNat idle.toNat) ∧
    ∀ d, Daemon.run checks timeout steps = some d →
      d.deeds = steps.filterMap Step.deed? ∧
      d.power.current = ((idleTimes steps).head?.map (stateAfter timeout)).getD .active ∧
      (∃ before, d.power.reports.map Prod.fst ++ [.active] = d.power.current :: before) ∧
      (d.power.reports.map Prod.fst).Sublist [.suspended, .dimmed] ∧
      ∀ e ∈ d.power.reports, e.1 = stateAfter timeout e.2 ∧ e.2 ∈ idleTimes steps ∧
        ∀ stamp, ∃ msg, e.1.publishState formats stamp e.2 = some msg ∧
          formats.parseParamsToValue msg.params = .object [("payload", e.1.payload e.2)] := by
  refine ⟨?_, stateAfter_eq_afterIdle, fun d ran => ?_⟩
  · rw [run_eq]
    split
    · rename_i stops
      exact iff_of_true rfl stops
    · rename_i goes
      exact iff_of_false nofun goes
  rw [run_eq] at ran
  split at ran
  · cases ran
  obtain rfl := Option.some.inj ran
  refine ⟨rfl, current_watch, head_past,
    sublist_of_decreasing (past_decreasing stateAfter_le (fun _ => active_le _) growing),
    fun e mem => ?_⟩
  obtain ⟨state, seen⟩ := mem_reports mem
  exact ⟨state, seen, fun stamp =>
    exists_statusMessage formats stamp _ _ (e.1.canonical_payload e.2)⟩

/-- A device that is left alone for a quarter of an hour, in which a command comes. -/
def sampleSteps : List Step :=
  [.turn 900, .turn 630, .command "power.command.suspend", .turn 330, .turn 30]

theorem idle_statuses_sample :
    (idleTimes sampleSteps).Pairwise (· ≥ ·) ∧ ∃ d, Daemon.run true 300 sampleSteps = some d ∧
      d.deeds = [.suspend] ∧ d.power.reports = [(.suspended, 630), (.dimmed, 330)] ∧
      (d.power.reports.map Prod.fst).Sublist [.suspended, .dimmed] := by
  have growing : (idleTimes sampleSteps).Pairwise (· ≥ ·) := by decide
  obtain ⟨-, -, each⟩ := idle_statuses textFormats true 300 sampleSteps growing
  exact ⟨growing, _, rfl, rfl, rfl, (each _ rfl).2.2.2.1⟩

end Powermand
