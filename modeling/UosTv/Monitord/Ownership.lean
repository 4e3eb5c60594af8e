import UosTv.Monitord.Rules

/-!
Which record owns which process.

`World.Sound` says that every record agrees with the processes: the child that it holds is
an unreaped process of that service, whose handle is held and whose pid is recorded, and a
service holds one exactly when it is running or starting. While a record is being changed
it is `busy`, and nothing is said of it; `Sound.put` ends this. One lemma for each operation
says what it leaves sound.
-/

namespace Monitord

open Rust

namespace World

variable {w w' : World} {busy : Option String} {name : String} {child : ProcId} {pid : Nat}
  {svc : ServiceRuntime}

/-- A record agrees with the processes. -/
structure Agrees (w : World) (name : String) (svc : ServiceRuntime) : Prop where
  owned : ∀ child, svc.child = some child → ∃ pid, svc.pid = some pid ∧ w.Owns name child pid
  active : svc.Active ↔ svc.child ≠ none

/-- Every record that is not being changed agrees with the processes. -/
structure Sound (busy : Option String) (w : World) : Prop where
  ids : (w.procs.map (·.id)).Nodup
  pids : (w.procs.map (·.pid)).Nodup
  fresh : ∀ p ∈ w.procs, p.id < w.nextId
  agrees : ∀ name svc, some name ≠ busy → w.services.get name = some svc → w.Agrees name svc

/-- A record without a process. -/
theorem agrees_childless (childless : svc.child = none) (idle : ¬ svc.Active) :
    w.Agrees name svc := by
  constructor
  · intro child has
    rw [childless] at has
    cases has
  · simp [childless, idle]

theorem Agrees.of_owns (agrees : w.Agrees name svc)
    (owns : ∀ child pid, w.Owns name child pid → w'.Owns name child pid) : w'.Agrees name svc := by
  refine ⟨fun child has => ?_, agrees.active⟩
  obtain ⟨pid, recorded, owned⟩ := agrees.owned child has
  exact ⟨pid, recorded, owns _ _ owned⟩

namespace Sound

theorem begin (sound : w.Sound none) (name : String) : w.Sound (some name) :=
  ⟨sound.ids, sound.pids, sound.fresh, fun name' svc _ found => sound.agrees name' svc (by simp) found⟩

/-- The record that was being changed is written. -/
theorem put (sound : w.Sound (some name)) (agrees : w.Agrees name svc) :
    (w.put name svc).Sound none := by
  refine ⟨sound.ids, sound.pids, sound.fresh, fun name' svc' _ found => ?_⟩
  rw [get_put] at found
  split at found
  · cases found
    rename_i same
    subst same
    exact agrees.of_owns fun _ _ owned => owned
  · rename_i other
    have agrees' := sound.agrees name' svc' (by simpa using other) found
    exact agrees'.of_owns fun _ _ owned => owned

/-- A record is written that does not agree yet. -/
theorem putBusy (sound : w.Sound (some name)) (svc : ServiceRuntime) :
    (w.put name svc).Sound (some name) := by
  refine ⟨sound.ids, sound.pids, sound.fresh, fun name' svc' other found => ?_⟩
  rw [get_put_of_ne (by simpa using other)] at found
  exact (sound.agrees name' svc' other found).of_owns fun _ _ owned => owned

/-- The clock, the log and the failures do not matter. -/
theorem congr (sound : w.Sound busy) (services : w'.services = w.services)
    (procs : w'.procs = w.procs) (nextId : w'.nextId = w.nextId) : w'.Sound busy := by
  refine ⟨by rw [procs]; exact sound.ids, by rw [procs]; exact sound.pids,
    by rw [procs, nextId]; exact sound.fresh, fun name svc other found => ?_⟩
  rw [services] at found
  refine (sound.agrees name svc other found).of_owns fun _ _ owned => ?_
  rwa [Owns, procs]

theorem setFailures (sound : w.Sound busy) (name : String) (count : Option Nat) :
    (w.setFailures name count).Sound busy := by
  cases count with
  | none => exact sound.congr rfl rfl rfl
  | some count => exact sound.congr rfl rfl rfl

theorem note (sound : w.Sound busy) (entry : Entry) : (w.note entry).Sound busy :=
  sound.congr rfl rfl rfl

end Sound

/-! ### What happens meanwhile -/

@[simp] theorem exitBy_fields (exits : List (ProcId × Option Int)) (p : Proc) :
    (p.exitBy exits).id = p.id ∧ (p.exitBy exits).pid = p.pid ∧
      (p.exitBy exits).service = p.service ∧ (p.exitBy exits).held = p.held := by
  unfold Proc.exitBy
  split
  · exact ⟨rfl, rfl, rfl, rfl⟩
  · exact ⟨rfl, rfl, rfl, rfl⟩

/-- A process that is there later was there before. -/
theorem mem_procs_pass {choice : Choice} {p : Proc} (mem : p ∈ (w.pass choice).procs) :
    ∃ q ∈ w.procs, q.exitBy choice.exits = p :=
  List.mem_map.mp (List.mem_filter.mp mem).1

/-- A process whose handle is held is not reaped by others. -/
theorem Owns.pass (owned : w.Owns name child pid) (choice : Choice) :
    (w.pass choice).Owns name child pid := by
  obtain ⟨p, mem, rfl, rfl, rfl, held⟩ := owned
  obtain ⟨sameId, samePid, sameService, sameHeld⟩ := exitBy_fields choice.exits p
  refine ⟨p.exitBy choice.exits, ?_, sameId, sameService, samePid, sameHeld.trans held⟩
  refine List.mem_filter.mpr ⟨List.mem_map_of_mem mem, ?_⟩
  simp [Proc.Reapable, held]

theorem Sound.pass (sound : w.Sound busy) (choice : Choice) : (w.pass choice).Sound busy := by
  have ids : (w.procs.map (Proc.exitBy choice.exits)).map (·.id) = w.procs.map (·.id) := by
    simp [Function.comp_def]
  have pids : (w.procs.map (Proc.exitBy choice.exits)).map (·.pid) = w.procs.map (·.pid) := by
    simp [Function.comp_def]
  constructor
  · exact (ids ▸ sound.ids).sublist (List.filter_sublist.map _)
  · exact (pids ▸ sound.pids).sublist (List.filter_sublist.map _)
  · intro p mem
    obtain ⟨q, before, rfl⟩ := mem_procs_pass mem
    rw [(exitBy_fields _ q).1]
    exact sound.fresh q before
  · intro name svc other found
    exact (sound.agrees name svc other found).of_owns fun _ _ owned => owned.pass choice

theorem Later.owns (later : w.Later w') (owned : w.Owns name child pid) : w'.Owns name child pid :=
  later.keeps (P := fun v => v.Owns name child pid) (fun _ choice owned => owned.pass choice) owned

theorem Later.sound (later : w.Later w') (sound : w.Sound busy) : w'.Sound busy :=
  later.keeps (P := fun v => v.Sound busy) (fun _ choice sound => sound.pass choice) sound

/-! ### Processes -/

theorem owns_spawned : (w.spawned name pid).Owns name w.nextId pid :=
  ⟨⟨w.nextId, name, pid, true, none⟩, List.mem_append_cons_self, rfl, rfl, rfl, rfl⟩

theorem Sound.spawned (sound : w.Sound busy) (new : pid ∉ w.procs.map (·.pid)) (name : String) :
    (w.spawned name pid).Sound busy := by
  constructor
  · rw [World.spawned, List.map_append, List.map_singleton, List.nodup_append]
    refine ⟨sound.ids, List.nodup_singleton _, ?_⟩
    rintro _ mem _ mem' rfl
    obtain ⟨p, mem, same⟩ := List.mem_map.mp mem
    have fresh := sound.fresh p mem
    rw [same, List.mem_singleton.mp mem'] at fresh
    exact lt_irrefl _ fresh
  · rw [World.spawned, List.map_append, List.map_singleton, List.nodup_append]
    refine ⟨sound.pids, List.nodup_singleton _, ?_⟩
    rintro _ mem _ mem' rfl
    rw [List.mem_singleton.mp mem'] at mem
    exact new mem
  · intro p mem
    rcases List.mem_append.mp mem with mem | mem
    · exact Nat.lt_succ_of_lt (sound.fresh p mem)
    · rw [List.mem_singleton.mp mem]
      exact Nat.lt_succ_self _
  · intro name' svc other found
    refine (sound.agrees name' svc other found).of_owns ?_
    rintro _ _ ⟨p, mem, rest⟩
    exact ⟨p, List.mem_append_left _ mem, rest⟩

/-- The processes with the id of `child` are the service's own. -/
def Own (w : World) (name : String) (child : ProcId) : Prop :=
  ∀ p ∈ w.procs, p.id = child → p.service = name

theorem Sound.own (sound : w.Sound busy) (owned : w.Owns name child pid) : w.Own name child := by
  obtain ⟨p, mem, rfl, rfl, -, -⟩ := owned
  intro q mem' same
  rw [List.inj_on_of_nodup_map sound.ids mem' mem same]

theorem Own.pass (own : w.Own name child) (choice : Choice) : (w.pass choice).Own name child := by
  intro p mem same
  obtain ⟨q, before, rfl⟩ := mem_procs_pass mem
  obtain ⟨sameId, -, sameService, -⟩ := exitBy_fields choice.exits q
  rw [sameService]
  exact own q before (sameId ▸ same)

/-- A service's own process may be reaped while its record is being changed. -/
theorem Sound.reap (sound : w.Sound (some name)) (own : w.Own name child) :
    (w.reap child).Sound (some name) := by
  constructor
  · exact sound.ids.sublist (List.filter_sublist.map _)
  · exact sound.pids.sublist (List.filter_sublist.map _)
  · exact fun p mem => sound.fresh p (List.mem_of_mem_filter mem)
  · intro name' svc other found
    have agrees := sound.agrees name' svc other found
    refine ⟨fun child' has => ?_, agrees.active⟩
    obtain ⟨pid, recorded, p, mem, rfl, rfl, rest⟩ := agrees.owned child' has
    refine ⟨pid, recorded, p, List.mem_filter.mpr ⟨mem, ?_⟩, rfl, rfl, rest⟩
    by_contra same
    exact other (congrArg some (own p mem (by simpa using same)))

theorem Own.reap (own : w.Own name child) : (w.reap child).Own name child :=
  fun p mem => own p (List.mem_of_mem_filter mem)

/-- The handle of a service's own process may be dropped while its record is being changed. -/
theorem Sound.drop (sound : w.Sound (some name)) (own : w.Own name child) :
    (w.drop child).Sound (some name) := by
  have fields : ∀ p : Proc, ∀ q, q = (if p.id = child then { p with held := false } else p) →
      q.id = p.id ∧ q.pid = p.pid := by
    rintro p _ rfl
    split <;> exact ⟨rfl, rfl⟩
  have ids : (w.drop child).procs.map (·.id) = w.procs.map (·.id) := by
    rw [World.drop, List.map_map]
    exact List.map_congr_left fun p _ => (fields p _ rfl).1
  have pids : (w.drop child).procs.map (·.pid) = w.procs.map (·.pid) := by
    rw [World.drop, List.map_map]
    exact List.map_congr_left fun p _ => (fields p _ rfl).2
  constructor
  · exact ids ▸ sound.ids
  · exact pids ▸ sound.pids
  · intro p mem
    obtain ⟨q, before, rfl⟩ := List.mem_map.mp mem
    rw [(fields q _ rfl).1]
    exact sound.fresh q before
  · intro name' svc other found
    have agrees := sound.agrees name' svc other found
    refine ⟨fun child' has => ?_, agrees.active⟩
    obtain ⟨pid, recorded, p, mem, rfl, rfl, rest⟩ := agrees.owned child' has
    refine ⟨pid, recorded, p, List.mem_map.mpr ⟨p, mem, if_neg fun same => ?_⟩, rfl, rfl, rest⟩
    exact other (congrArg some (own p mem same))

/-! ### The start -/

theorem get_init {services : List ServiceManifest} (distinct : (services.map (·.name)).Nodup) :
    (init services).services.get name = some svc ↔
      ∃ manifest ∈ services, manifest.name = name ∧ svc = .new manifest := by
  rw [init, HashMap.get_collect]
  · simp [eq_comm]
  · rwa [List.map_map]

theorem sound_init {services : List ServiceManifest} (distinct : (services.map (·.name)).Nodup) :
    (init services).Sound none := by
  constructor
  · exact List.nodup_nil
  · exact List.nodup_nil
  · intro p mem
    cases mem
  · intro name svc _ found
    obtain ⟨manifest, -, -, rfl⟩ := (get_init distinct).mp found
    exact agrees_childless rfl (by simp [ServiceRuntime.Active, ServiceRuntime.new])

end World

end Monitord
