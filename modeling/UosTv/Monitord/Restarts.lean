import UosTv.Monitord.Launch

/-!
Which services a pass of `monitor_services` restarts.

`PassInputs` is what the environment decides in a pass: the order in which the map is gone
through, which processes are found exited and when, which binaries exist and which spawns
succeed. After the first loop the records are those of `checked`; the services to restart
are those that `asks` (`wp_check_loop`). In the second loop a service runs in the end iff
every service it needs runs when its turn comes (`wp_restart_loop`), which is only so when
that service has not exited, or is itself restarted earlier in the same pass
(`monitor_restarts_iff`).
-/

namespace Monitord

open DependencyOrder Effect Rust

/-- What the environment decides in a pass. -/
structure PassInputs where
  order : List String
  found : String → Except String (Option (Option Int))
  clock : String → Nat
  present : String → Bool
  spawns : String → Bool

namespace PassInputs

/-- The answers that are as decided; the clock is read when an exit is recorded. -/
def rely (o : PassInputs) (w : World) : (op : Op) → Ans op → Prop
  | .names, answer => answer = o.order
  | .tryWait name _, answer => answer = o.found name
  | .log (.exited name _), _ => w.now = o.clock name
  | .pathExists name _, answer => answer = o.present name
  | .spawn name _, answer => answer.isOk = o.spawns name
  | _, _ => True

instance (o : PassInputs) (w : World) : (op : Op) → (answer : Ans op) →
    Decidable (o.rely w op answer)
  | .names, answer => (inferInstance : DecidableEq (List String)) answer o.order
  | .tryWait name _, answer =>
    (inferInstance : DecidableEq (Except String (Option (Option Int)))) answer (o.found name)
  | .log (.exited name _), _ => (inferInstance : DecidableEq Nat) w.now (o.clock name)
  | .pathExists name _, answer => (inferInstance : DecidableEq Bool) answer (o.present name)
  | .spawn name _, answer =>
    (inferInstance : DecidableEq Bool) (Except.isOk answer) (o.spawns name)
  | .log (.healthFailed _), _ | .acquire _ _ _, _ | .release _ _ _, _ | .read _, _ | .write _ _, _
  | .readFailures _, _ | .writeFailures _ _, _ | .unwrapNone, _ | .now, _ | .sleep _, _
  | .wait _ _, _ | .drop _, _ | .startKill _ _, _ | .kill _ _ _, _ | .probe _ _ _, _ =>
    isTrue trivial

variable (o : PassInputs) (w : World)

/-- The exit code of a service that should run and is found exited. -/
def exitOf (name : String) (svc : ServiceRuntime) : Option (Option Int) :=
  if svc.Active then
    match o.found name with
    | .ok exit => exit
    | .error _ => none
  else none

/-- The record of a service after the first loop. -/
def checked (name : String) (svc : ServiceRuntime) : ServiceRuntime :=
  match o.exitOf name svc with
  | none => svc
  | some code => svc.afterExit (o.clock name) code

/-- With this record, the service is found exited, its policy asks for a restart, and it is
in no crash loop. -/
def wants (name : String) (svc : ServiceRuntime) : Bool :=
  match o.exitOf name svc with
  | none => false
  | some code => svc.restarts (o.clock name) code

/-- The service is to be restarted. -/
def asks (name : String) : Bool := (w.services.get name).any (o.wants name)

/-- The service is to be restarted, and its binary exists and its spawn succeeds. -/
def Restartable (name : String) : Prop :=
  o.asks w name = true ∧ o.present name = true ∧ o.spawns name = true

instance (name : String) : Decidable (o.Restartable w name) :=
  inferInstanceAs (Decidable (_ ∧ _ ∧ _))

/-- The service runs, and is not found exited. -/
def StaysUp (name : String) : Prop :=
  ∃ svc, w.services.get name = some svc ∧ svc.status = .running ∧ o.exitOf name svc = none

variable {o w} {name : String} {svc : ServiceRuntime}

/-- What asks for a restart has failed. -/
theorem checked_of_asks (found : w.services.get name = some svc) (asks : o.asks w name = true) :
    (o.checked name svc).child = none ∧ (o.checked name svc).manifest = svc.manifest ∧
      ∃ reason, (o.checked name svc).status = .failed reason := by
  rw [PassInputs.asks, found, Option.any_some, wants] at asks
  unfold checked
  cases exit : o.exitOf name svc with
  | none => simp [exit] at asks
  | some code =>
    simp only [exit] at asks
    obtain ⟨same, -⟩ := decideExit_restart asks
    simp only [ServiceRuntime.afterExit, same]
    exact ⟨rfl, rfl, _, rfl⟩

/-- After the first loop, those services run that have stayed up. -/
theorem checked_running_iff (found : w.services.get name = some svc) :
    (o.checked name svc).status = .running ↔ o.StaysUp w name := by
  unfold checked StaysUp
  cases exit : o.exitOf name svc with
  | none => simp [found, exit]
  | some code =>
    have down := afterExit_inactive svc (o.clock name) code
    simp only [ServiceRuntime.Active, not_or] at down
    simp [found, exit, down.1]

/-- A service that asks for a restart has not stayed up. -/
theorem not_staysUp_of_asks (asks : o.asks w name = true) : ¬ o.StaysUp w name := by
  rintro ⟨svc, found, -, exit⟩
  simp [PassInputs.asks, wants, found, exit] at asks

end PassInputs

section Pass

variable {o : PassInputs} {w : World}

/-! ### The first loop -/

/-- What a turn does, by the exit that it finds. -/
theorem check_effect {v v' : World} {name : String} {svc : ServiceRuntime}
    {here : List (String × Nat)} (found : v.services.get name = some svc)
    (outcome : CheckOutcome o.rely name svc v here v') :
    v'.services.get name = some (o.checked name svc) ∧ v'.nextId = v.nextId ∧
      here.map Prod.fst = if o.wants name svc then [name] else [] := by
  unfold PassInputs.checked PassInputs.wants
  cases outcome with
  | idle inactive =>
    have exit : o.exitOf name svc = none := if_neg inactive
    rw [exit]
    exact ⟨found, rfl, rfl⟩
  | @alive child answer _ active has answered alive later =>
    have exit : o.exitOf name svc = none := by
      obtain ⟨_, isFound⟩ := answered
      rw [PassInputs.exitOf, if_pos active, ← (show answer = o.found name from isFound)]
      cases answer with
      | error e => rfl
      | ok exit =>
        cases exit with
        | none => rfl
        | some code => exact absurd rfl (alive code)
    rw [exit]
    exact ⟨by rw [later.services, found], later.nextId, rfl⟩
  | @exited child code v' active has answered later logged =>
    have exit : o.exitOf name svc = some code := by
      obtain ⟨_, isFound⟩ := answered
      rw [PassInputs.exitOf, if_pos active,
        ← (show Except.ok (some code) = o.found name from isFound)]
    have time : v'.now = o.clock name := logged
    rw [exit, time]
    refine ⟨World.get_put_self, later.nextId, ?_⟩
    simp only
    split
    · rfl
    · rfl

/-- In the first loop: the services in `done` have been checked. -/
structure Checking (o : PassInputs) (w : World) (rest : List String) (acc : List (String × Nat))
    (v : World) (done : List String) : Prop where
  split : o.order = done ++ rest
  records : ∀ name svc, w.services.get name = some svc →
    v.services.get name = some (if name ∈ done then o.checked name svc else svc)
  unknown : ∀ name, w.services.get name = none → v.services.get name = none
  restarts : acc.map Prod.fst = done.filter (o.asks w)
  nextId : v.nextId = w.nextId

theorem Checking.turn {rest done : List String} {acc here : List (String × Nat)} {v v' : World}
    {name : String} {svc : ServiceRuntime} (nodup : o.order.Nodup) (known : w.Known o.order)
    (checking : Checking o w (name :: rest) acc v done) (found : v.services.get name = some svc)
    (outcome : CheckOutcome o.rely name svc v here v') :
    Checking o w rest (acc ++ here) v' (done ++ [name]) := by
  obtain ⟨split, records, unknown, restarts, nextId⟩ := checking
  rw [split] at nodup
  have new : name ∉ done := fun old =>
    (List.nodup_append.mp nodup).2.2 name old name List.mem_cons_self rfl
  obtain ⟨svc', found'⟩ := known name (by rw [split]; simp)
  have same := records name svc' found'
  rw [if_neg new] at same
  cases same.symm.trans found
  obtain ⟨record, sameId, asked⟩ := check_effect found outcome
  constructor
  · rw [split, List.append_assoc]
    rfl
  · intro name₁ svc₁ found₁
    by_cases isName : name₁ = name
    · subst isName
      cases found'.symm.trans found₁
      simpa using record
    · rw [outcome.others isName, records name₁ svc₁ found₁]
      simp [isName]
  · intro name₁ absent
    have other : name₁ ≠ name := by
      rintro rfl
      rw [absent] at found'
      cases found'
    rw [outcome.others other]
    exact unknown name₁ absent
  · rw [List.map_append, restarts, asked, List.filter_append]
    congr 1
    rw [List.filter_singleton, PassInputs.asks, found', Option.any_some]
    cases o.wants name svc with
    | true => rfl
    | false => rfl
  · rw [sameId, nextId]

/-! ### The second loop -/

/-- In the second loop: a service in `done` runs iff it could be started when its turn came. -/
structure Restarting (o : PassInputs) (w : World) (rest : List (String × Nat)) (v : World)
    (done : List String) : Prop where
  split : o.order.filter (o.asks w) = done ++ rest.map Prod.fst
  nextId : w.nextId ≤ v.nextId
  records : ∀ name ∉ done, ∀ svc, w.services.get name = some svc →
    v.services.get name = some (o.checked name svc)
  unknown : ∀ name, w.services.get name = none → v.services.get name = none
  running : ∀ before name after svc, done = before ++ name :: after →
    w.services.get name = some svc → (v.statusOf name = .running ↔
      o.present name = true ∧ o.spawns name = true ∧ ∀ dep ∈ svc.manifest.dependencies,
        dep ∈ before ∧ v.statusOf dep = .running ∨ o.StaysUp w dep)
  renewed : ∀ name ∈ done, v.statusOf name = .running →
    ∃ svc child, v.services.get name = some svc ∧ svc.child = some child ∧ w.nextId ≤ child

theorem statusOf_congr {v v' : World} {name : String}
    (same : v'.services.get name = v.services.get name) : v'.statusOf name = v.statusOf name := by
  rw [World.statusOf, same]
  rfl

/-- While the services in `done` have had their turn, a service runs iff it has been
restarted or has stayed up. -/
theorem Restarting.running_iff {rest : List (String × Nat)} {done : List String} {v : World}
    (restarting : Restarting o w rest v done) (dep : String) : v.statusOf dep = .running ↔
      dep ∈ done ∧ v.statusOf dep = .running ∨ o.StaysUp w dep := by
  by_cases mem : dep ∈ done
  · have asks : o.asks w dep = true := by
      have mem' : dep ∈ o.order.filter (o.asks w) := by
        rw [restarting.split]
        exact List.mem_append_left _ mem
      exact (List.mem_filter.mp mem').2
    simp [mem, PassInputs.not_staysUp_of_asks asks]
  · simp only [mem, false_and, false_or]
    cases found : w.services.get dep with
    | none =>
      have absent := restarting.unknown dep found
      simp [World.statusOf, absent, PassInputs.StaysUp, found]
    | some svc =>
      rw [← PassInputs.checked_running_iff found, World.statusOf, restarting.records dep mem svc found]
      rfl

/-- Whether a service runs after its turn. -/
theorem start_effect {v v' : World} {name : String} {svc : ServiceRuntime} {busSocket reason : String}
    {result : Except String Unit} (found : v.services.get name = some svc)
    (failed : svc.status = .failed reason)
    (outcome : StartOutcome o.rely busSocket name svc v result v') :
    (v'.statusOf name = .running ↔ o.present name = true ∧ o.spawns name = true ∧
      v.AllRunning svc.manifest.dependencies) ∧ v.nextId ≤ v'.nextId ∧
    (v'.statusOf name = .running →
      ∃ svc child, v'.services.get name = some svc ∧ svc.child = some child ∧ v.nextId ≤ child) := by
  have running := outcome.running_iff found (by simp [failed])
  refine ⟨running.trans (outcome.ok_iff (fun _ _ _ answer => answer) fun _ _ _ answer => answer), ?_⟩
  rw [running]
  cases outcome with
  | blocked _ later => exact ⟨le_of_eq later.nextId.symm, by rintro ⟨⟩⟩
  | missing _ _ later => exact ⟨le_of_eq later.nextId.symm, by rintro ⟨⟩⟩
  | refused _ _ _ later => exact ⟨le_of_eq later.nextId.symm, by rintro ⟨⟩⟩
  | @started w₁ w₂ _ _ _ _ before _ after =>
    refine ⟨?_, fun _ => ⟨_, _, World.get_put_self, rfl, le_rfl⟩⟩
    calc v.nextId = w₁.nextId := before.nextId.symm
      _ ≤ w₁.nextId + 1 := Nat.le_succ _
      _ = w₂.nextId := after.nextId.symm

theorem Restarting.turn {rest : List (String × Nat)} {done : List String} {v v' : World}
    {r : String × Nat} {svc : ServiceRuntime} {busSocket : String} {result : Except String Unit}
    (nodup : o.order.Nodup) (restarting : Restarting o w (r :: rest) v done)
    (found : v.services.get r.1 = some svc)
    (outcome : StartOutcome o.rely busSocket r.1 svc v result v') :
    Restarting o w rest v' (done ++ [r.1]) := by
  have asking : (o.order.filter (o.asks w)).Nodup := nodup.filter _
  have asks : o.asks w r.1 = true := by
    have mem : r.1 ∈ o.order.filter (o.asks w) := by rw [restarting.split]; simp
    exact (List.mem_filter.mp mem).2
  rw [restarting.split, List.map_cons] at asking
  have new : r.1 ∉ done := fun old =>
    (List.nodup_append.mp asking).2.2 r.1 old r.1 List.mem_cons_self rfl
  obtain ⟨svc₀, found₀⟩ : ∃ svc₀, w.services.get r.1 = some svc₀ := by
    by_contra absent
    have unknown := restarting.unknown r.1 (Option.eq_none_iff_forall_ne_some.mpr (by simpa using absent))
    rw [unknown] at found
    cases found
  cases (restarting.records r.1 new svc₀ found₀).symm.trans found
  obtain ⟨-, manifest, reason, failed⟩ := PassInputs.checked_of_asks found₀ asks
  obtain ⟨started, more, renewed⟩ := start_effect found failed outcome
  have others : ∀ name ∈ done, v'.statusOf name = v.statusOf name := by
    intro name mem
    exact statusOf_congr (outcome.others (by rintro rfl; exact new mem))
  constructor
  · rw [restarting.split, List.append_assoc]
    rfl
  · exact restarting.nextId.trans more
  · intro name out svc₁ found₁
    simp only [List.mem_append, List.mem_singleton, not_or] at out
    rw [outcome.others out.2]
    exact restarting.records name out.1 svc₁ found₁
  · intro name absent
    have other : name ≠ r.1 := by
      rintro rfl
      rw [absent] at found₀
      cases found₀
    rw [outcome.others other]
    exact restarting.unknown name absent
  · intro before name after svc₁ split found₁
    rcases List.eq_nil_or_concat after with rfl | ⟨after, last, rfl⟩
    · -- The service whose turn it was.
      obtain ⟨rfl, same⟩ := List.append_inj' split rfl
      obtain rfl := List.singleton_inj.mp same
      cases found₀.symm.trans found₁
      rw [started, manifest]
      refine and_congr_right fun _ => and_congr_right fun _ => forall₂_congr fun dep _ => ?_
      rw [restarting.running_iff dep]
      refine or_congr_left (and_congr_right fun mem => ?_)
      rw [others dep mem]
    · -- A service that had its turn before.
      rw [List.concat_eq_append, ← List.cons_append, ← List.append_assoc] at split
      obtain ⟨same, -⟩ := List.append_inj' split rfl
      rw [others name (by rw [same]; simp), restarting.running before name after svc₁ same found₁]
      refine and_congr_right fun _ => and_congr_right fun _ => forall₂_congr fun dep _ => ?_
      refine or_congr_left (and_congr_right fun mem => ?_)
      rw [others dep (by rw [same]; exact List.mem_append_left _ mem)]
  · intro name mem up
    rcases List.mem_append.mp mem with mem | mem
    · rw [others name mem] at up
      rw [outcome.others (by rintro rfl; exact new mem)]
      exact restarting.renewed name mem up
    · obtain rfl := List.mem_singleton.mp mem
      obtain ⟨svc', child, found', has, fresh⟩ := renewed up
      exact ⟨svc', child, found', has, restarting.nextId.trans fresh⟩

/-! ### The pass -/

/-- The service runs, with a process that has been spawned since `w`. -/
def RunsAnew (w w' : World) (name : String) : Prop :=
  ∃ svc child, w'.services.get name = some svc ∧ svc.status = .running ∧
    svc.child = some child ∧ w.nextId ≤ child

/-- After the pass, all the services that ask for it have had their turn. -/
theorem wp_monitorServices_restarting (busSocket : String) (sound : w.Sound none) :
    wp act (relying o.rely) (monitorServices busSocket)
      (fun _ v => o.order.Perm w.services.keys ∧ ∃ done, Restarting o w [] v done) w := by
  have pass : wp act (relying o.rely) (monitorServices busSocket)
      (fun _ v => v.Sound none ∧ o.order.Perm w.services.keys ∧ ∃ done, Restarting o w [] v done) w := by
    refine wp_monitorServices sound
      (fun rest acc v => o.order.Perm w.services.keys ∧ ∃ done, Checking o w rest acc v done)
      (fun rest v => o.order.Perm w.services.keys ∧ ∃ done, Restarting o w rest v done) ?_ ?_ ?_
      (fun _ _ _ _ _ _ => trivial) ?_
    · rintro names perm rfl
      refine ⟨perm, [], rfl, fun name svc found => ?_, fun _ absent => absent, rfl, rfl⟩
      rw [found, if_neg List.not_mem_nil]
    · rintro name rest acc v svc here v' ⟨perm, done, checking⟩ - found outcome
      have nodup := perm.nodup_iff.mpr w.services.keys_nodup
      have known : w.Known o.order := fun name mem => HashMap.mem_keys.mp (perm.mem_iff.mp mem)
      exact ⟨perm, _, checking.turn nodup known found outcome⟩
    · rintro restarts v ⟨perm, done, checking⟩ - -
      have all : o.order = done := by rw [checking.split, List.append_nil]
      refine ⟨perm, [], ?_, le_of_eq checking.nextId.symm, ?_, checking.unknown, ?_, by simp⟩
      · rw [List.nil_append, checking.restarts, all]
      · intro name _ svc found
        have mem : name ∈ done := all ▸ perm.mem_iff.mpr (HashMap.mem_keys.mpr ⟨svc, found⟩)
        rw [checking.records name svc found, if_pos mem]
      · intro before name after svc split
        cases before <;> cases split
    · rintro r rest v svc result v' ⟨perm, done, restarting⟩ - found - - outcome
      have nodup := perm.nodup_iff.mpr w.services.keys_nodup
      exact ⟨perm, _, restarting.turn nodup found outcome⟩
  exact wp_mono pass fun _ v post => post.2

/-- In a list without repetitions, what comes before an element is before it. -/
theorem pair_sublist_iff {l before after : List String} {a b : String} (nodup : l.Nodup)
    (split : l = before ++ b :: after) : [a, b].Sublist l ↔ a ∈ before := by
  subst split
  constructor
  · intro sub
    obtain ⟨first, second, same, left, right⟩ := List.sublist_append_iff.mp sub
    have fresh := (List.nodup_cons.mp (List.nodup_append.mp nodup).2.1).1
    cases first with
    | nil =>
      rw [List.nil_append] at same
      subst same
      rcases List.sublist_cons_iff.mp right with later | ⟨rest, same, later⟩
      · exact absurd (later.subset (by simp)) fresh
      · cases same
        exact absurd (later.subset (by simp)) fresh
    | cons c first =>
      obtain ⟨rfl, -⟩ := List.cons.inj same
      exact left.subset List.mem_cons_self
  · intro mem
    exact (List.singleton_sublist.mpr mem).append (List.singleton_sublist.mpr List.mem_cons_self)

/-- What a service that is to be restarted needs is available: it has stayed up, or it is
restarted earlier in the same pass. -/
def Available (o : PassInputs) (w : World) (name dep : String) : Prop :=
  o.StaysUp w dep ∨ o.Restartable w dep ∧ [dep, name].Sublist o.order

/-- After the second loop, all the services that can be restarted run iff what they need is
available. -/
theorem Restarting.runsAnew_iff {v : World} {done : List String} (nodup : o.order.Nodup)
    (known : ∀ name svc, w.services.get name = some svc → name ∈ o.order)
    (restarting : Restarting o w [] v done) :
    (∀ name, o.Restartable w name → RunsAnew w v name) ↔
      ∀ name svc, o.Restartable w name → w.services.get name = some svc →
        ∀ dep ∈ svc.manifest.dependencies, Available o w name dep := by
  have isDone : done = o.order.filter (o.asks w) := by simpa using restarting.split.symm
  have found_of_asks : ∀ name, o.asks w name = true → ∃ svc, w.services.get name = some svc := by
    intro name asks
    rw [PassInputs.asks] at asks
    cases found : w.services.get name with
    | none => simp [found] at asks
    | some svc => exact ⟨svc, rfl⟩
  have asked : ∀ name, name ∈ done ↔ o.asks w name = true := by
    intro name
    rw [isDone, List.mem_filter, and_iff_right_iff_imp]
    intro asks
    obtain ⟨svc, found⟩ := found_of_asks name asks
    exact known name svc found
  have runsAnew_iff : ∀ name ∈ done, RunsAnew w v name ↔ v.statusOf name = .running := by
    intro name mem
    constructor
    · rintro ⟨svc, child, found, running, -⟩
      rw [World.statusOf, found]
      exact running
    · intro up
      obtain ⟨svc, child, found, has, fresh⟩ := restarting.renewed name mem up
      rw [World.statusOf, found] at up
      exact ⟨svc, child, found, up, has, fresh⟩
  have nodupDone : done.Nodup := isDone ▸ nodup.filter _
  -- Among the services that ask, the order of the pass is that of the second loop.
  have before_iff : ∀ before name after, done = before ++ name :: after → ∀ dep,
      o.asks w dep = true → (dep ∈ before ↔ [dep, name].Sublist o.order) := by
    intro before name after split dep asks
    have asks' : o.asks w name = true := (asked name).mp (by rw [split]; simp)
    rw [← pair_sublist_iff nodupDone split, isDone]
    constructor
    · exact fun sub => sub.trans List.filter_sublist
    · intro sub
      simpa [List.filter_cons, asks, asks'] using sub.filter (o.asks w)
  constructor
  · rintro runs name svc restartable found dep needs
    have mem := (asked name).mpr restartable.1
    obtain ⟨before, after, split⟩ := List.append_of_mem mem
    have up := (runsAnew_iff name mem).mp (runs name restartable)
    obtain ⟨-, -, deps⟩ := (restarting.running before name after svc split found).mp up
    rcases deps dep needs with ⟨earlier, depUp⟩ | stays
    · have depMem : dep ∈ done := by rw [split]; exact List.mem_append_left _ earlier
      have depAsks := (asked dep).mp depMem
      obtain ⟨svc', found'⟩ := found_of_asks dep depAsks
      obtain ⟨before', after', split'⟩ := List.append_of_mem depMem
      obtain ⟨present, spawns, -⟩ :=
        (restarting.running before' dep after' svc' split' found').mp depUp
      exact .inr ⟨⟨depAsks, present, spawns⟩,
        (before_iff before name after split dep depAsks).mp earlier⟩
    · exact .inl stays
  · intro available
    by_contra fails
    push Not at fails
    obtain ⟨name, restartable, stopped⟩ := fails
    -- The first service that does not come up, of those that should: all that it needs is up.
    have ordered : Ordered (fun a b => o.Restartable w a ∧
        ∃ svc, w.services.get a = some svc ∧ b ∈ svc.manifest.dependencies ∧ ¬ o.StaysUp w b) done := by
      rintro before a after split b ⟨restartable, svc, found, needs, down⟩
      rcases available a svc restartable found b needs with stays | ⟨restartable', earlier⟩
      · exact absurd stays down
      · exact (before_iff before a after split b restartable'.1).mpr earlier
    obtain ⟨a, mem, failed, deps⟩ := ordered.exists_first
      (fun a => o.Restartable w a → v.statusOf a = .running)
      ⟨name, (asked name).mpr restartable.1, fun up =>
        stopped ((runsAnew_iff name ((asked name).mpr restartable.1)).mpr (up restartable))⟩
    push Not at failed
    obtain ⟨restartable, down⟩ := failed
    obtain ⟨svc, found⟩ := found_of_asks a restartable.1
    obtain ⟨before, after, split⟩ := List.append_of_mem mem
    refine down ((restarting.running before a after svc split found).mpr
      ⟨restartable.2.1, restartable.2.2, fun dep needs => ?_⟩)
    by_cases stays : o.StaysUp w dep
    · exact .inr stays
    · rcases available a svc restartable found dep needs with stays' | ⟨restartable', earlier⟩
      · exact absurd stays' stays
      · exact .inl ⟨(before_iff before a after split dep restartable'.1).mpr earlier,
          deps dep ⟨restartable, svc, found, needs, stays⟩ restartable'⟩

end Pass

/-- **Restarts after exits.** In a pass of `monitor_services` from any state reached after the
boot, for any exits, spawns and order of the map: every service that is found exited, whose
policy asks for a restart, that is in no crash loop, whose binary exists and whose spawn
succeeds runs with a new process when the pass returns iff everything that such a service
needs is available when its turn comes. -/
theorem monitor_restarts_iff (l : Launch) (busSocket : String) (passes : List Pass)
    (booting choices rest rest' : List Choice) (w w' : World) (o : PassInputs)
    (reached : exec act (supervise busSocket l.order passes) l.start booting =
      some (.ok (), w, rest))
    (run : exec act (monitorServices busSocket) w choices = some ((), w', rest'))
    (decided : ∀ e ∈ trace act (monitorServices busSocket) w choices, e.Relied (relying o.rely)) :
    (∀ name, o.Restartable w name → RunsAnew w w' name) ↔
      ∀ name svc, o.Restartable w name → w.services.get name = some svc →
        ∀ dep ∈ svc.manifest.dependencies, Available o w name dep := by
  have sound : w.Sound none := by
    have pre : wp act (relying fun _ _ _ => True) (supervise busSocket l.order passes)
        (fun result w => result = .ok () → w.Sound none ∧ w.Carries l.services) l.start :=
      wp_supervise_sound passes
    exact (wp_exec pre reached (fun _ _ _ _ _ => trivial) rfl).1
  obtain ⟨perm, done, restarting⟩ :=
    wp_exec (wp_monitorServices_restarting busSocket sound) run decided
  refine restarting.runsAnew_iff (perm.nodup_iff.mpr w.services.keys_nodup) fun name svc found => ?_
  exact perm.mem_iff.mpr (HashMap.mem_keys.mpr ⟨svc, found⟩)


/-- The world at the end of a run. -/
def lastWorld {α : Type} (start : World) (run : Option (α × World × List Choice)) : World :=
  run.elim start fun out => out.2.1

/-- Every service is found exited with code 1, and can be started again. -/
def exitAll (order : List String) : PassInputs where
  order
  found _ := .ok (some (some 1))
  clock _ := 0
  present _ := true
  spawns _ := true

/-- The first two processes exit with code 1. -/
def exitChoice (order : List String) : Choice where
  order
  exits := [(0, some 1), (1, some 1)]
  pid := 4

def soloBooted : World :=
  lastWorld soloLaunch.start
    (exec act (supervise "" soloLaunch.order []) soloLaunch.start (List.replicate 14 {}))

/-- The process of the one service exits in the pass, and the service runs again. -/
theorem monitor_restarts_iff_solo :
    RunsAnew soloBooted (lastWorld soloBooted
      (exec act (monitorServices "") soloBooted (List.replicate 26 (exitChoice ["a"])))) "a" := by
  have iff := monitor_restarts_iff soloLaunch "" [] (List.replicate 14 {})
    (List.replicate 26 (exitChoice ["a"])) [] [] soloBooted _ (exitAll ["a"]) rfl rfl (by decide)
  refine iff.mpr (fun name svc _ found dep needs => ?_) "a" (by decide)
  have isA : name = "a" := List.mem_singleton.mp (HashMap.mem_keys.mpr ⟨svc, found⟩)
  subst isA
  cases found
  cases needs

def pairBooted : World :=
  lastWorld pairLaunch.start (exec act (supervise "" pairLaunch.order []) pairLaunch.start
    (List.replicate 16 { pid := 1 } ++ List.replicate 17 { pid := 2 }))

/-- Both processes exit; what needs the other is restarted first, and gives up at once. -/
theorem restart_before_dependency : ∃ w',
    exec act (supervise "" pairLaunch.order []) pairLaunch.start
      (List.replicate 16 { pid := 1 } ++ List.replicate 17 { pid := 2 }) =
        some (.ok (), pairBooted, []) ∧
    exec act (monitorServices "") pairBooted (List.replicate 45 (exitChoice ["b", "a"])) =
      some ((), w', []) ∧
    (∀ e ∈ trace act (monitorServices "") pairBooted (List.replicate 45 (exitChoice ["b", "a"])),
      e.Relied (relying (exitAll ["b", "a"]).rely)) ∧
    (exitAll ["b", "a"]).Restartable pairBooted "b" ∧ ¬ RunsAnew pairBooted w' "b" := by
  refine ⟨_, rfl, rfl, by decide, by decide, ?_⟩
  rintro ⟨svc, child, found, running, -⟩
  cases found
  cases running

end Monitord
