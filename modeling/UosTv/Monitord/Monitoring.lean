import UosTv.Monitord.Starting

/-!
What a pass of `monitor_services` does.

`CheckOutcome` is what one turn of its first loop does to a service: nothing, or an exit is
recorded and it is decided whether the service is restarted. The second loop is a
`start_service` for each service on the list. `wp_monitorServices` is the rule of the pass:
an invariant for each of the two loops, over the services still to come.
-/

namespace Monitord

open Effect Rust
open Effect.Prog (forEach)

variable {rely : World → (o : Op) → Ans o → Prop} {w w' : World} {name : String}
  {svc : ServiceRuntime} {G : World → Op → Prop} {S : World → String → Prop}

/-! ### Decisions -/

theorem decideExit_fields (svc : ServiceRuntime) (code : Option Int) :
    (decideExit svc code).1.child = svc.child ∧ (decideExit svc code).1.manifest = svc.manifest ∧
      (decideExit svc code).1.crashTimestamps = svc.crashTimestamps := by
  unfold decideExit
  split
  · exact ⟨rfl, rfl, rfl⟩
  · split
    · exact ⟨rfl, rfl, rfl⟩
    · exact ⟨rfl, rfl, rfl⟩

theorem decideExit_inactive {svc : ServiceRuntime} (inactive : ¬ svc.Active) (code : Option Int) :
    ¬ (decideExit svc code).1.Active := by
  unfold decideExit
  split
  · simp [ServiceRuntime.Active]
  · split
    · exact inactive
    · simp [ServiceRuntime.Active]

/-- What is restarted is as recorded, not in a crash loop, and to be restarted. -/
theorem decideExit_restart {svc : ServiceRuntime} {code : Option Int}
    (again : (decideExit svc code).2 = true) : (decideExit svc code).1 = svc ∧
      svc.crashLooping = false ∧ shouldRestart svc.manifest.restart code = true := by
  unfold decideExit at again ⊢
  split at again
  · cases again
  · rename_i calm
    split at again
    · rename_i wanted
      rw [if_neg calm, if_pos wanted]
      exact ⟨rfl, eq_false_of_ne_true calm, wanted⟩
    · cases again

/-- The record after an exit. -/
abbrev ServiceRuntime.afterExit (svc : ServiceRuntime) (now : Nat) (code : Option Int) :
    ServiceRuntime :=
  (decideExit (svc.recordExit now code) code).1

/-- Whether the service is put on the list of services to restart. -/
abbrev ServiceRuntime.restarts (svc : ServiceRuntime) (now : Nat) (code : Option Int) : Bool :=
  (decideExit (svc.recordExit now code) code).2

theorem afterExit_childless (svc : ServiceRuntime) (now : Nat) (code : Option Int) :
    (svc.afterExit now code).child = none := (decideExit_fields _ _).1

theorem afterExit_inactive (svc : ServiceRuntime) (now : Nat) (code : Option Int) :
    ¬ (svc.afterExit now code).Active :=
  decideExit_inactive (by simp [ServiceRuntime.Active, ServiceRuntime.recordExit]) code

/-! ### Monitoring -/

/-- What a turn of `monitor_services` does to the service with record `svc`. -/
inductive CheckOutcome (rely : World → (o : Op) → Ans o → Prop) (name : String)
    (svc : ServiceRuntime) (w : World) : List (String × Nat) → World → Prop where
  | idle (inactive : ¬ svc.Active) : CheckOutcome rely name svc w [] w
  | alive {child : ProcId} {answer : Except String (Option (Option Int))} {w' : World}
      (active : svc.Active) (has : svc.child = some child)
      (answered : Answered rely (.tryWait name child) answer)
      (alive : ∀ code, answer ≠ .ok (some code)) (later : w.Later w') :
      CheckOutcome rely name svc w [] w'
  | exited {child : ProcId} {code : Option Int} {w' : World}
      (active : svc.Active) (has : svc.child = some child)
      (answered : Answered rely (.tryWait name child) (.ok (some code))) (later : w.Later w')
      (logged : rely (w'.reap child) (.log (.exited name code)) ()) :
      CheckOutcome rely name svc w
        (if svc.restarts w'.now code then [(name, svc.manifest.restartDelayMs)] else [])
        ((((w'.reap child).note (.line (.exited name code))).drop child).put name
          (svc.afterExit w'.now code))

theorem wp_checkService [Grants G S] (found : w.services.get name = some svc) (agrees : w.Agrees name svc) :
    wp act (contract rely G) (checkService name) (CheckOutcome rely name svc w) w := by
  simp only [checkService, wp_bind, wp_acquire, wp_readService, found, wp_unwrap]
  split
  · rename_i active
    obtain ⟨child, has⟩ := Option.ne_none_iff_exists'.mp (agrees.active.mp active)
    simp only [checkChild, wp_bind, wp_acquire, wp_readService, found, wp_unwrap, has, wp_release,
      wp_pure]
    refine wp_tryWait ?_ ?_ ?_
    · intro e choice relied
      exact .alive active has ⟨w, relied⟩ (by simp) (World.Later.refl.pass choice)
    · intro choice relied
      exact .alive active has ⟨w, relied⟩ (by simp) (World.Later.refl.pass choice)
    · intro code choice relied
      simp only [handleTryWait, dropChild, wp_bind, wp_logLine, wp_dropHandle, wp_instantNow,
        wp_writeService, wp_pure]
      refine fun logged => ⟨Grants.of_allowed ?_ not_false,
        .exited active has ⟨w, relied⟩ (World.Later.refl.pass choice) logged⟩
      intro old isOld looped
      cases found.symm.trans isOld
      exact absurd looped (not_looped_of_active active)
  · simp only [wp_bind, wp_pure, wp_release]
    exact .idle ‹_›

namespace CheckOutcome

variable {here : List (String × Nat)}

theorem others (outcome : CheckOutcome rely name svc w here w') {name' : String}
    (other : name' ≠ name) : w'.services.get name' = w.services.get name' := by
  cases outcome with
  | idle => rfl
  | alive _ _ _ _ later => rw [later.services]
  | exited _ _ _ later =>
    rw [World.get_put_of_ne other, ← later.services]
    rfl

theorem sound (outcome : CheckOutcome rely name svc w here w') (sound : w.Sound none)
    (found : w.services.get name = some svc) : w'.Sound none := by
  cases outcome with
  | idle => exact sound
  | alive _ _ _ _ later => exact later.sound sound
  | @exited child code w' _ has _ later _ =>
    obtain ⟨pid, -, owned⟩ := (sound.agrees name svc (by simp) found).owned child has
    have sound' := later.sound sound
    have own := sound'.own (later.owns owned)
    have reaped := ((sound'.begin name).reap own).note (.line (.exited name code))
    exact (reaped.drop own.reap).put
      (World.agrees_childless (afterExit_childless _ _ _) (afterExit_inactive _ _ _))

/-- Every service keeps its manifest. -/
theorem manifest (outcome : CheckOutcome rely name svc w here w')
    (found : w.services.get name = some svc) {name' : String} {svc₁ : ServiceRuntime}
    (found₁ : w.services.get name' = some svc₁) :
    ∃ svc₂, w'.services.get name' = some svc₂ ∧ svc₂.manifest = svc₁.manifest := by
  by_cases same : name' = name
  · subst same
    cases found.symm.trans found₁
    cases outcome with
    | idle => exact ⟨_, found, rfl⟩
    | alive _ _ _ _ later => exact ⟨_, by rw [later.services, found], rfl⟩
    | exited _ _ _ later => exact ⟨_, World.get_put_self, (decideExit_fields _ _).2.1⟩
  · exact ⟨svc₁, by rw [outcome.others same, found₁], rfl⟩

/-- What is put on the list of services to restart. -/
theorem mem_here (outcome : CheckOutcome rely name svc w here w') {r : String × Nat}
    (mem : r ∈ here) : here = [r] ∧ r.1 = name ∧
      ∃ svc', w'.services.get name = some svc' ∧ svc'.child = none ∧ ¬ svc'.Looped := by
  cases outcome with
  | idle => cases mem
  | alive => cases mem
  | @exited child code w' _ _ _ later _ =>
    split at mem
    · rename_i again
      obtain rfl := List.mem_singleton.mp mem
      refine ⟨if_pos again, rfl, _, World.get_put_self, afterExit_childless _ _ _, ?_⟩
      rw [ServiceRuntime.afterExit, (decideExit_restart again).1]
      rintro ⟨reason, looped⟩
      cases looped
    · cases mem

end CheckOutcome

/-- The services to restart have no process, and none is in a crash loop. -/
structure World.Ready (w : World) (restarts : List (String × Nat)) : Prop where
  nodup : (restarts.map Prod.fst).Nodup
  ready : ∀ r ∈ restarts, ∃ svc, w.services.get r.1 = some svc ∧ svc.child = none ∧ ¬ svc.Looped

/-- The rule of the first loop of `monitor_services`. -/
theorem wp_collectRestarts [Grants G S] {names : List String} (nodup : names.Nodup) (known : w.Known names)
    (sound : w.Sound none) {acc : List (String × Nat)} (ready : w.Ready acc)
    (apart : ∀ r ∈ acc, r.1 ∉ names) (I : List String → List (String × Nat) → World → Prop)
    (start : I names acc w)
    (step : ∀ name rest acc w svc here w', I (name :: rest) acc w → w.Sound none →
      w.services.get name = some svc → CheckOutcome rely name svc w here w' →
      I rest (acc ++ here) w') :
    wp act (contract rely G) (collectRestarts names) (fun restarts w' =>
      w'.Sound none ∧ w'.Ready (acc ++ restarts) ∧ I [] (acc ++ restarts) w') w := by
  induction names generalizing w acc with
  | nil => exact ⟨sound, by simpa using ready, by simpa using start⟩
  | cons name names ih =>
    obtain ⟨new, nodup⟩ := List.nodup_cons.mp nodup
    obtain ⟨⟨svc, found⟩, known⟩ := List.forall_mem_cons.mp known
    simp only [collectRestarts, wp_bind, wp_pure]
    refine wp_mono (wp_checkService found (sound.agrees name svc (by simp) found)) ?_
    intro here w' outcome
    have sameOthers : ∀ name' ≠ name, w'.services.get name' = w.services.get name' :=
      fun name' other => outcome.others other
    have known' : w'.Known names := by
      intro name' mem
      rw [sameOthers name' (by rintro rfl; exact new mem)]
      exact known name' mem
    have ready' : w'.Ready (acc ++ here) := by
      constructor
      · rw [List.map_append, List.nodup_append]
        refine ⟨ready.nodup, ?_, ?_⟩
        · cases here with
          | nil => exact List.nodup_nil
          | cons r here =>
            rw [(outcome.mem_here List.mem_cons_self).1]
            exact List.nodup_singleton _
        · rintro _ mem _ mem' rfl
          obtain ⟨r, before, rfl⟩ := List.mem_map.mp mem
          obtain ⟨r', mem', same⟩ := List.mem_map.mp mem'
          have isName := (outcome.mem_here mem').2.1
          exact apart r before (by rw [← same, isName]; exact List.mem_cons_self)
      · intro r mem
        rcases List.mem_append.mp mem with mem | mem
        · rw [sameOthers r.1 fun same => apart r mem (same ▸ List.mem_cons_self)]
          exact ready.ready r mem
        · obtain ⟨-, same, record⟩ := outcome.mem_here mem
          rwa [same]
    have apart' : ∀ r ∈ acc ++ here, r.1 ∉ names := by
      intro r mem
      rcases List.mem_append.mp mem with mem | mem
      · exact fun inside => apart r mem (List.mem_cons_of_mem _ inside)
      · rwa [(outcome.mem_here mem).2.1]
    have rest := ih nodup known' (outcome.sound sound found) ready' apart'
      (step name names acc w svc here w' start sound found outcome)
    refine wp_mono rest fun later w'' post => ?_
    rwa [List.append_assoc] at post

/-- The rule of the second loop of `monitor_services`. -/
theorem wp_restarts [Grants G S] {busSocket : String} {restarts : List (String × Nat)} (sound : w.Sound none)
    (ready : w.Ready restarts) (J : List (String × Nat) → World → Prop) (start : J restarts w)
    (spawns : ∀ r rest w w', J (r :: rest) w → w.Later w' → S w' r.1)
    (step : ∀ r rest w svc result w', J (r :: rest) w → w.Sound none →
      w.services.get r.1 = some svc → svc.child = none → ¬ svc.Looped →
      StartOutcome rely busSocket r.1 svc w result w' → J rest w') :
    wp act (contract rely G) (forEach restarts fun restart => do
      let _ ← startService busSocket restart.1
      pure ()) (fun _ w' => w'.Sound none ∧ J [] w') w := by
  refine wp_mono (wp_forEach (fun rest w => w.Sound none ∧ w.Ready rest ∧ J rest w) ?_
    ⟨sound, ready, start⟩) fun _ w' post => ⟨post.1, post.2.2⟩
  rintro r rest w ⟨sound, ready, holds⟩
  obtain ⟨svc, found, childless, notLooped⟩ := ready.ready r List.mem_cons_self
  simp only [wp_bind, wp_pure]
  have able : ∀ w', w.Later w' → S w' r.1 := fun w' => spawns r rest w w' holds
  refine wp_mono (wp_startService busSocket found childless notLooped able) fun result w' outcome => ?_
  refine ⟨outcome.sound sound childless, ⟨(List.nodup_cons.mp ready.nodup).2, fun r' mem => ?_⟩,
    step r rest w svc result w' holds sound found childless notLooped outcome⟩
  have other : r'.1 ≠ r.1 := fun same =>
    (List.nodup_cons.mp ready.nodup).1 (same ▸ List.mem_map_of_mem mem)
  rw [outcome.others other]
  exact ready.ready r' (List.mem_cons_of_mem _ mem)

/-- The rule of `monitor_services`. -/
theorem wp_monitorServices [Grants G S] {busSocket : String} (sound : w.Sound none)
    (I : List String → List (String × Nat) → World → Prop)
    (J : List (String × Nat) → World → Prop)
    (start : ∀ names, names.Perm w.services.keys → rely w .names names → I names [] w)
    (check : ∀ name rest acc w svc here w', I (name :: rest) acc w → w.Sound none →
      w.services.get name = some svc → CheckOutcome rely name svc w here w' →
      I rest (acc ++ here) w')
    (middle : ∀ restarts w, I [] restarts w → w.Sound none → w.Ready restarts → J restarts w)
    (spawns : ∀ r rest w w', J (r :: rest) w → w.Later w' → S w' r.1)
    (restart : ∀ r rest w svc result w', J (r :: rest) w → w.Sound none →
      w.services.get r.1 = some svc → svc.child = none → ¬ svc.Looped →
      StartOutcome rely busSocket r.1 svc w result w' → J rest w') :
    wp act (contract rely G) (monitorServices busSocket) (fun _ w' => w'.Sound none ∧ J [] w') w := by
  simp only [monitorServices, wp_bind]
  rw [wp_serviceNames]
  intro names perm relied
  have nodup : names.Nodup := perm.nodup_iff.mpr w.services.keys_nodup
  have known : w.Known names := fun name mem => HashMap.mem_keys.mp (perm.mem_iff.mp mem)
  refine wp_mono (wp_collectRestarts nodup known sound ⟨by simp, by simp⟩ (by simp) I
    (start names perm relied) check) ?_
  rintro restarts w' ⟨sound', ready, holds⟩
  exact wp_restarts sound' ready J (middle restarts w' holds sound' ready) spawns restart

end Monitord
