import UosTv.Inis.Init

/-!
How many monitords are alive.

`main` forks the first monitord, and `main_loop` begins as if there were none: before its
first fork it has observed nothing. Of the processes that `main_loop` has forked itself the
last one has always been observed to end before the next fork (`Idle`). So at most one
monitord is alive at every moment iff the one of `main` is dead whenever `main_loop` forks
another (`one_monitord_iff`).
-/

namespace Inis

open Effect

/-- The process has ended, and `waitpid` has said so. -/
def Child.Gone (c : Child) : Prop := c.alive = false ∧ c.observed = true

/-- The process is no monitord that is alive. -/
def Child.Down (c : Child) : Prop := c.image = .monitord → c.alive = false

/-- The process that `main` has forked is no monitord that is alive. -/
def World.FirstDown (w : World) : Prop := ∀ c ∈ w.children.head?, c.Down

/-- Whenever `main_loop` forks a monitord, the one of `main` is dead. -/
def Handover (w : World) : (o : Op) → Ans o → Prop
  | .fork .monitord, answer => (answer : Option Pid) ≠ none → w.FirstDown
  | _, _ => True

variable {R : World → (o : Op) → Ans o → Prop} {w : World} {pid : Pid}

/-- The answers that are relied on hand over. -/
def Hands (R : World → (o : Op) → Ans o → Prop) : Prop :=
  ∀ w (pid : Pid), R w (.fork .monitord) (some pid) → w.FirstDown

/-- At most one monitord is alive, if the answers hand over; and of the processes that have
been forked the last one has been observed to end, unless `main` has forked it. -/
def Guarantee (R : World → (o : Op) → Ans o → Prop) (w : World) (o : Op) : Prop :=
  (Hands R → w.AtMostOne) ∧ ∀ image, o = .fork image →
    ∀ c ∈ w.children.getLast?, (c.observed = true ↔ 2 ≤ w.children.length)

def watching (R : World → (o : Op) → Ans o → Prop) : Contract Op Ans World := ⟨R, Guarantee R⟩

/-! ### Processes -/

namespace World

theorem AtMostOne.of_down {w : World} {old : List Child} {c : Child} (split : w.children = old ++ [c])
    (down : ∀ d ∈ old, d.Down) : w.AtMostOne := by
  have zero : old.countP (fun c => c.image = .monitord ∧ c.alive = true) = 0 := by
    rw [List.countP_eq_zero]
    intro d mem
    simpa [Child.Down] using down d mem
  rw [AtMostOne, split, List.countP_append, zero, Nat.zero_add]
  exact List.countP_le_length

/-- Only the first one may be alive. -/
theorem AtMostOne.of_tail {w : World} (down : ∀ c ∈ w.children.tail, c.Down) : w.AtMostOne := by
  unfold AtMostOne
  cases split : w.children with
  | nil => simp
  | cons first rest =>
    have zero : rest.countP (fun c => c.image = .monitord ∧ c.alive = true) = 0 := by
      rw [List.countP_eq_zero]
      intro d mem
      rw [split] at down
      simpa [Child.Down] using down d mem
    rw [List.countP_cons, zero]
    split <;> omega

/-- What can happen to the processes while nothing is forked. -/
structure Fades (w w' : World) (f : Child → Child) : Prop where
  children : w'.children = w.children.map f
  pid : ∀ c, (f c).pid = c.pid
  image : ∀ c, (f c).image = c.image
  alive : ∀ c, (f c).alive = true → c.alive = true
  observed : ∀ c, c.observed = true → (f c).observed = true

theorem fades_pass (w : World) (exits : List Pid) : w.Fades (w.pass exits)
    fun c => if c.pid ∈ exits then { c with alive := false } else c := by
  refine ⟨rfl, fun c => ?_, fun c => ?_, fun c => ?_, fun c => ?_⟩
  all_goals
    split
    · simp
    · simp

theorem fades_reported (w : World) (result : WaitResult) : w.Fades (w.reported result)
    fun c => if Reports result c then { c with observed := true } else c := by
  refine ⟨rfl, fun c => ?_, fun c => ?_, fun c => ?_, fun c => ?_⟩
  all_goals
    split
    · simp
    · simp

namespace Fades

variable {w' : World} {f : Child → Child} (fades : w.Fades w' f)
include fades

theorem dead {c : Child} (dead : c.alive = false) : (f c).alive = false := by
  cases alive : (f c).alive with
  | false => rfl
  | true =>
    rw [fades.alive c alive] at dead
    cases dead

theorem gone {c : Child} (gone : c.Gone) : (f c).Gone :=
  ⟨fades.dead gone.1, fades.observed c gone.2⟩

theorem down {c : Child} (down : c.Down) : (f c).Down := by
  intro image
  rw [fades.image] at image
  exact fades.dead (down image)

theorem atMostOne (one : w.AtMostOne) : w'.AtMostOne := by
  refine Nat.le_trans ?_ one
  rw [fades.children, List.countP_map]
  apply List.countP_mono_left
  intro c _
  simp only [Function.comp_apply, decide_eq_true_eq, fades.image]
  exact fun both => ⟨both.1, fades.alive c both.2⟩

end Fades

end World

/-! ### The states of the loop -/

/-- Nothing that `main_loop` has forked is left to wait for. -/
structure Idle (w : World) : Prop where
  nonempty : w.children ≠ []
  gone : ∀ c ∈ w.children.tail, c.Gone
  fresh : w.children.tail = [] → ∀ c ∈ w.children, c.observed = false

/-- The last process that has been forked has the pid that `main_loop` waits for. -/
structure Current (R : World → (o : Op) → Ans o → Prop) (pid : Pid) (w : World) : Prop where
  split : ∃ old c, w.children = old ++ [c] ∧ old ≠ [] ∧ c.pid = pid ∧ (∀ d ∈ old.tail, d.Gone) ∧
    (Hands R → c.image = .monitord → ∀ d ∈ old, d.Down)

theorem Idle.atMostOne (idle : Idle w) : w.AtMostOne :=
  .of_tail fun c mem _ => (idle.gone c mem).1

theorem Current.atMostOne (current : Current R pid w) (hands : Hands R) : w.AtMostOne := by
  obtain ⟨old, c, split, nonempty, -, gone, down⟩ := current.split
  cases image : c.image with
  | monitord => exact .of_down split (down hands image)
  | shell =>
    apply World.AtMostOne.of_tail
    intro d mem
    rw [split, List.tail_append_of_ne_nil nonempty] at mem
    rcases List.mem_append.mp mem with mem | mem
    · exact fun _ => (gone d mem).1
    · rw [List.mem_singleton.mp mem, Child.Down, image]
      rintro ⟨⟩

/-- What is guaranteed of a fork. -/
theorem Idle.guarantee (idle : Idle w) (o : Op) : Guarantee R w o := by
  refine ⟨fun _ => idle.atMostOne, fun image _ c last => ?_⟩
  cases split : w.children with
  | nil => exact absurd split idle.nonempty
  | cons first rest =>
    rw [split] at last
    cases rest with
    | nil =>
      obtain rfl : first = c := by simpa using last
      have fresh := idle.fresh (by rw [split]; rfl) first (by rw [split]; exact List.mem_cons_self)
      simp [fresh]
    | cons second rest =>
      have mem : c ∈ second :: rest := by
        rw [Option.mem_def, List.getLast?_cons_cons] at last
        exact List.mem_of_getLast? last
      have gone := idle.gone c (by rw [split]; exact mem)
      simp [gone.2]

theorem guarantee_of_one {o : Op} (one : Hands R → w.AtMostOne) (noFork : ∀ image, o ≠ .fork image) :
    Guarantee R w o :=
  ⟨one, fun image isFork => absurd isFork (noFork image)⟩

section Fades

variable {w' : World} {f : Child → Child}

theorem Current.fades (current : Current R pid w) (fades : w.Fades w' f) : Current R pid w' := by
  obtain ⟨old, c, split, nonempty, isPid, gone, down⟩ := current.split
  refine ⟨old.map f, f c, ?_, ?_, ?_, ?_, ?_⟩
  · rw [fades.children, split, List.map_append, List.map_singleton]
  · simpa using nonempty
  · rw [fades.pid, isPid]
  · rw [← List.map_tail, List.forall_mem_map]
    exact fun d mem => fades.gone (gone d mem)
  · intro hands image
    rw [fades.image] at image
    rw [List.forall_mem_map]
    exact fun d mem => fades.down (down hands image d mem)

theorem Idle.pass (idle : Idle w) (exits : List Pid) : Idle (w.pass exits) := by
  have fades := w.fades_pass exits
  constructor
  · rw [fades.children]
    simpa using idle.nonempty
  · rw [fades.children, ← List.map_tail, List.forall_mem_map]
    exact fun c mem => fades.gone (idle.gone c mem)
  · rw [fades.children, ← List.map_tail, List.map_eq_nil_iff, List.forall_mem_map]
    intro alone c mem
    rw [← idle.fresh alone c mem]
    split
    · rfl
    · rfl

/-- When the process that `main_loop` waits for is reported, nothing is left to wait for. -/
theorem Current.reported {result : WaitResult} (current : Current R pid w)
    (consistent : w.Consistent result)
    (ended : result = .echild ∨ (∃ code, result = .exited pid code) ∨
      ∃ signal, result = .signaled pid signal) : Idle (w.reported result) := by
  obtain ⟨old, c, split, nonempty, isPid, gone, -⟩ := current.split
  have fades := w.fades_reported result
  have there : c ∈ w.children := by rw [split]; simp
  have dead : c.alive = false ∧ World.Reports result c := by
    rcases ended with rfl | ⟨code, rfl⟩ | ⟨signal, rfl⟩
    · exact ⟨consistent c there, trivial⟩
    · exact ⟨eq_false_of_ne_true fun alive => consistent c there alive isPid, isPid⟩
    · exact ⟨eq_false_of_ne_true fun alive => consistent c there alive isPid, isPid⟩
  have tail : w.children.tail = old.tail ++ [c] := by
    rw [split, List.tail_append_of_ne_nil nonempty]
  constructor
  · rw [fades.children, split]
    simp
  · rw [fades.children, ← List.map_tail, List.forall_mem_map, tail]
    intro d mem
    rcases List.mem_append.mp mem with mem | mem
    · exact fades.gone (gone d mem)
    · obtain rfl := List.mem_singleton.mp mem
      exact ⟨fades.dead dead.1, by rw [if_pos dead.2]⟩
  · rw [fades.children, ← List.map_tail, tail]
    simp

theorem Idle.forked (idle : Idle w) (image : Image)
    (handed : Hands R → image = .monitord → w.FirstDown) : Current R pid (w.forked image pid) := by
  refine ⟨w.children, _, rfl, idle.nonempty, rfl, idle.gone, ?_⟩
  intro hands isMonitord c mem
  cases split : w.children with
  | nil => exact absurd split idle.nonempty
  | cons first rest =>
    rw [split] at mem
    rcases List.mem_cons.mp mem with rfl | mem
    · exact handed hands isMonitord c (by rw [split]; rfl)
    · exact fun _ => (idle.gone c (by rw [split]; exact mem)).1

end Fades

/-! ### The program -/

section Program

/-- The operations in which only time goes by. -/
def Op.Ticks : Op → Prop
  | .fork _ | .exit _ | .waitpid => False
  | _ => True

theorem Op.Ticks.pass {o : Op} (ticks : o.Ticks) {choice : Choice} {answer : Ans o} {w' : World}
    (done : act w o choice = some (answer, w')) : w' = w.pass choice.exits := by
  cases o with
  | fork | exit | waitpid => exact ticks.elim
  | _ =>
    cases done
    rfl

theorem wp_tick {o : Op} {Q : Ans o → World → Prop} (ticks : o.Ticks) (one : Hands R → w.AtMostOne)
    (post : ∀ answer exits, Q answer (w.pass exits)) : wp act (watching R) (call o) Q w := by
  refine ⟨guarantee_of_one one (by rintro image rfl; exact ticks), ?_⟩
  intro choice answer w' done _
  rw [ticks.pass done]
  exact post answer choice.exits

theorem wp_sleep {duration : Nat} {Q : Unit → World → Prop} (one : Hands R → w.AtMostOne)
    (post : ∀ exits, Q () (w.pass exits)) : wp act (watching R) (sleep duration) Q w :=
  wp_tick trivial one fun _ => post

theorem wp_pathExists {path : String} {Q : Bool → World → Prop} (one : Hands R → w.AtMostOne)
    (post : ∀ found exits, Q found (w.pass exits)) :
    wp act (watching R) (pathExists path) Q w :=
  wp_tick trivial one post

theorem wp_waitpid {Q : WaitResult → World → Prop} (one : Hands R → w.AtMostOne)
    (post : ∀ result exits, (w.pass exits).Consistent result →
      Q result ((w.pass exits).reported result)) : wp act (watching R) waitpid Q w := by
  refine ⟨guarantee_of_one one (by rintro _ ⟨⟩), ?_⟩
  rintro choice answer w' done -
  simp only [act] at done
  split at done
  · cases done
    exact post _ _ ‹_›
  · cases done

theorem wp_forkOrExit {image : Image} {Q : Pid → World → Prop}
    (guaranteed : Guarantee R w (.fork image)) (one : Hands R → w.AtMostOne)
    (post : ∀ pid, (Hands R → image = .monitord → w.FirstDown) → Q pid (w.forked image pid)) :
    wp act (watching R) (forkOrExit image) Q w := by
  simp only [forkOrExit, wp_bind]
  refine ⟨guaranteed, ?_⟩
  rintro choice answer w' done relied
  simp only [act, actFork] at done
  split at done
  · cases done
    refine ⟨guarantee_of_one one (by rintro _ ⟨⟩), ?_⟩
    rintro choice answer w' ⟨⟩
  · split at done
    · cases done
    · cases done
      refine post _ fun hands isMonitord => ?_
      subst isMonitord
      exact hands _ _ relied

/-- `spawn_monitord`, in a state in which a fork is as guaranteed however long it takes. -/
theorem wp_spawnMonitord {K : World → Prop} {Q : Pid → World → Prop} (start : K w)
    (pass : ∀ w exits, K w → K (w.pass exits))
    (guaranteed : ∀ w o, K w → Guarantee R w o)
    (post : ∀ w image pid, K w → (Hands R → image = .monitord → w.FirstDown) →
      Q pid (w.forked image pid)) : wp act (watching R) spawnMonitord Q w := by
  simp only [spawnMonitord, wp_bind]
  apply wp_pathExists (guaranteed w (.pathExists "") start).1
  intro found exits
  have holds := pass w exits start
  split
  · exact wp_forkOrExit (guaranteed _ _ holds) (guaranteed _ (.pathExists "") holds).1
      fun pid => post _ _ pid holds
  · exact wp_forkOrExit (guaranteed _ _ holds) (guaranteed _ (.pathExists "") holds).1
      fun pid => post _ _ pid holds

/-! ### Where nothing is forked -/

/-- At most one monitord stays alive. -/
theorem wp_tick_one {o : Op} (ticks : o.Ticks) (one : Hands R → w.AtMostOne) :
    wp act (watching R) (call o) (fun _ w' => Hands R → w'.AtMostOne) w :=
  wp_tick ticks one fun _ exits hands => (w.fades_pass exits).atMostOne (one hands)

theorem wp_reapForever (one : Hands R → w.AtMostOne) (turns : Nat) :
    wp act (watching R) (reapForever turns) (fun _ w' => Hands R → w'.AtMostOne) w := by
  induction turns generalizing w with
  | zero => exact one
  | succ turns ih =>
    simp only [reapForever, wp_bind]
    apply wp_waitpid one
    intro result exits _
    have one' : Hands R → ((w.pass exits).reported result).AtMostOne := fun hands =>
      (World.fades_reported _ result).atMostOne ((w.fades_pass exits).atMostOne (one hands))
    exact wp_mono (wp_tick_one trivial one') fun _ w' one'' => ih one''

theorem wp_haltForever (one : Hands R → w.AtMostOne) (turns : Nat) :
    wp act (watching R) (haltForever turns) (fun _ w' => Hands R → w'.AtMostOne) w := by
  induction turns generalizing w with
  | zero => exact one
  | succ turns ih =>
    simp only [haltForever, wp_bind]
    exact wp_mono (wp_tick_one trivial one) fun _ w' one' => ih one'

theorem wp_doShutdown (one : Hands R → w.AtMostOne) (turns : Nat) :
    wp act (watching R) (doShutdown turns) (fun _ w' => Hands R → w'.AtMostOne) w := by
  simp only [doShutdown, wp_bind]
  refine wp_mono (wp_tick_one trivial one) fun _ w₁ one₁ => ?_
  refine wp_mono (wp_tick_one trivial one₁) fun _ w₂ one₂ => ?_
  refine wp_mono (wp_tick_one trivial one₂) fun _ w₃ one₃ => ?_
  refine wp_mono (wp_tick_one trivial one₃) fun _ w₄ one₄ => ?_
  refine wp_mono (wp_tick_one trivial one₄) fun _ w₅ one₅ => ?_
  exact wp_haltForever one₅ turns

/-! ### The loop -/

/-- What `main_loop` knows of the processes. -/
def Knows (R : World → (o : Op) → Ans o → Prop) : Option Pid → World → Prop
  | none => Idle
  | some pid => Current R pid

theorem Knows.atMostOne {monitordPid : Option Pid} (knows : Knows R monitordPid w) (hands : Hands R) :
    w.AtMostOne := by
  cases monitordPid with
  | none => exact Idle.atMostOne knows
  | some pid => exact Current.atMostOne knows hands

theorem Knows.pass {monitordPid : Option Pid} (knows : Knows R monitordPid w) (exits : List Pid) :
    Knows R monitordPid (w.pass exits) := by
  cases monitordPid with
  | none => exact Idle.pass knows exits
  | some pid => exact Current.fades knows (w.fades_pass exits)

theorem wp_sleep_knows {monitordPid : Option Pid} (knows : Knows R monitordPid w) (duration : Nat) :
    wp act (watching R) (do sleep duration; pure monitordPid) (Knows R) w := by
  simp only [wp_bind, wp_pure]
  exact wp_sleep knows.atMostOne fun exits => knows.pass exits

/-- What is made of a result of `waitpid`. -/
theorem wp_observe (current : Current R pid w) {result : WaitResult}
    (consistent : w.Consistent result) :
    wp act (watching R) (observe pid result) (Knows R) (w.reported result) := by
  have still : Knows R (some pid) (w.reported result) := current.fades (w.fades_reported result)
  cases result with
  | exited other code =>
    simp only [observe, wp_pure]
    split
    · rename_i same
      subst same
      exact current.reported consistent (.inr (.inl ⟨code, rfl⟩))
    · exact still
  | signaled other signal =>
    simp only [observe, wp_pure]
    split
    · rename_i same
      subst same
      exact current.reported consistent (.inr (.inr ⟨signal, rfl⟩))
    · exact still
  | other => exact wp_sleep_knows still _
  | echild =>
    have idle : Knows R none (w.reported .echild) := current.reported consistent (.inl rfl)
    exact wp_sleep_knows idle _
  | error e => exact wp_sleep_knows still _

theorem wp_restart (idle : Idle w) (count : Nat) :
    wp act (watching R) (restart count) (fun pid w' => Current R pid w') w := by
  simp only [restart, wp_bind]
  apply wp_sleep fun _ => idle.atMostOne
  intro exits
  refine wp_spawnMonitord (idle.pass exits) (fun w exits idle => idle.pass exits)
    (fun w o idle => idle.guarantee o) ?_
  exact fun w image pid idle handed => idle.forked image handed

theorem wp_giveUp (idle : Idle w) (turns : Nat) :
    wp act (watching R) (giveUp turns) (fun _ w' => Hands R → w'.AtMostOne) w := by
  simp only [giveUp, wp_bind]
  refine ⟨idle.guarantee _, ?_⟩
  rintro choice answer w' done -
  refine wp_reapForever (fun hands => ?_) turns
  simp only [act, actFork] at done
  split at done
  · cases done
    exact idle.atMostOne
  · split at done
    · cases done
    · cases done
      exact Current.atMostOne (R := R) (idle.forked .shell (by rintro _ ⟨⟩)) hands

theorem wp_turn (turns : Nat) {monitordPid : Option Pid} (knows : Knows R monitordPid w)
    (restartCount : Nat) : wp act (watching R) (turn turns monitordPid restartCount)
      (fun _ w' => Hands R → w'.AtMostOne) w := by
  induction turns generalizing w monitordPid restartCount with
  | zero => exact knows.atMostOne
  | succ turns ih =>
    have rest : ∀ {pid count} {v : World}, Current R pid v → wp act (watching R) (do
        let next ← observe pid (← waitpid)
        if ← shutdownRequested then doShutdown turns else turn turns next count)
          (fun _ w' => Hands R → w'.AtMostOne) v := by
      intro pid count v current
      simp only [wp_bind]
      apply wp_waitpid current.atMostOne
      intro result exits consistent
      refine wp_mono (wp_observe (current.fades (v.fades_pass exits)) consistent) ?_
      intro next v' knows'
      refine wp_tick trivial knows'.atMostOne fun shutdown exits' => ?_
      have knows'' := knows'.pass exits'
      split
      · exact wp_doShutdown knows''.atMostOne turns
      · exact ih knows'' _
    rw [turn]
    split
    · rename_i given
      obtain ⟨rfl, -⟩ := given
      exact wp_giveUp knows turns
    · cases monitordPid with
      | none =>
        simp only [if_true]
        rw [wp_bind]
        exact wp_mono (wp_restart knows _) fun pid w' current => rest current
      | some pid => exact rest knows

/-- In every run of `main`, the guarantee holds throughout. -/
theorem wp_main (turns : Nat) :
    wp act (watching R) (main turns) (fun _ w' => Hands R → w'.AtMostOne) .start := by
  have first : ∀ w o, w.children = [] → Guarantee R w o := by
    intro w o empty
    refine ⟨fun _ => .of_tail (by simp [empty]), fun image _ c last => ?_⟩
    rw [empty] at last
    cases last
  simp only [main, wp_bind]
  refine wp_spawnMonitord (K := fun w => w.children = []) rfl ?_ first ?_
  · intro w exits empty
    rw [World.pass, empty]
    rfl
  · intro w image pid empty _
    have idle : Idle (w.forked image pid) := by
      constructor
      · simp [World.forked]
      · simp [World.forked, empty]
      · simp [World.forked, empty]
    refine wp_tick trivial (fun _ => idle.atMostOne) fun _ exits => ?_
    have knows : Knows R none ((w.forked image pid).pass exits) := idle.pass exits
    exact wp_turn turns knows 0

end Program

/-- **At most one monitord.** In every run of `main`, with results of `waitpid` that are
consistent with the processes: at every moment at most one monitord is alive iff whenever
`main_loop` has forked a monitord, the one of `main` was dead. When anything is forked, the
process forked last has been observed to end iff it is not the one of `main`. -/
theorem one_monitord_iff (turns : Nat) (choices : List Choice) :
    ((∀ w ∈ states act (main turns) .start choices, w.AtMostOne) ↔
      ∀ w pid, ⟨w, .fork .monitord, some (some pid)⟩ ∈ trace act (main turns) .start choices →
        w.FirstDown) ∧
    ∀ e ∈ trace act (main turns) .start choices, ∀ image, e.op = .fork image →
      ∀ c ∈ e.before.children.getLast?, (c.observed = true ↔ 2 ≤ e.before.children.length) := by
  constructor
  · constructor
    · intro one w pid mem c first isMonitord
      obtain ⟨choice, w', done, mem'⟩ := exists_mem_states mem rfl
      have isForked : w' = w.forked .monitord pid := by
        simp only [act, actFork] at done
        split at done
        · cases done
        · split at done
          · cases done
          · cases done
            rfl
      have count := one w' mem'
      by_contra alive
      have alive' : c.alive = true := by simpa using alive
      obtain ⟨rest, split⟩ : ∃ rest, w.children = c :: rest := List.head?_eq_some_iff.mp first
      -- Both the first one and the new one are alive.
      rw [isForked, World.AtMostOne, World.forked, split, List.cons_append, List.countP_cons,
        List.countP_append] at count
      simp [isMonitord, alive'] at count
    · intro handed
      have hands : Hands Handover := fun w pid relied => relied (by rintro ⟨⟩)
      have pre : wp act (watching Handover) (main turns) (fun _ w => w.AtMostOne) .start :=
        wp_mono (wp_main turns) fun _ w one => one hands
      have keeps : ∀ w o, (watching Handover).guarantee w o → w.AtMostOne :=
        fun w o guarantee => guarantee.1 hands
      refine wp_states keeps pre ?_
      rintro ⟨w, o, _ | answer⟩ mem _ ⟨⟩
      match o, answer with
      | .fork .monitord, some pid => exact fun _ => handed w pid mem
      | .fork .monitord, none => exact fun forked => absurd rfl forked
      | .fork .shell, _ | .harden, _ | .pathExists _, _ | .sleep _, _ | .waitpid, _
      | .shutdownRequested, _ | .killAll _, _ | .reboot, _ => trivial
  · intro e mem
    have pre : wp act (watching fun _ _ _ => True) (main turns) (fun _ _ => True) .start :=
      wp_mono (wp_main turns) fun _ _ _ => trivial
    exact (wp_trace pre (fun _ _ _ _ => trivial) e mem).2

/-- The first monitord runs on when `main_loop` forks the second one. -/
theorem two_monitords_alive : ∃ w ∈ states act (main 1) .start
    [{ found := true }, { forked := some 1 }, { found := true }, { found := true },
      { found := true }, { forked := some 2 }], ¬ w.AtMostOne := by
  decide

end Inis
