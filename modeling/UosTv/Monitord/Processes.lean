import UosTv.Monitord.Launch

/-!
The processes of the supervisor, over whole runs.

What the rules guarantee of every operation holds of every operation of every run
(`supervise_processes`): a service is spawned only without a process, a signal goes to a
process of that service that has not been reaped, and a service in a crash loop is never
spawned again. Between two passes a service that is running or starting has a process.
-/

namespace Monitord

open Effect Rust

/-- The service is in a crash loop. -/
def World.CrashLooped (w : World) (name : String) : Prop :=
  ∃ svc, w.services.get name = some svc ∧ svc.Looped

/-- Only `write` changes a record. -/
theorem act_services {w w' : World} {o : Op} {choice : Choice} {answer : Ans o}
    (done : act w o choice = some (answer, w')) :
    w'.services = w.services ∨ ∃ name svc, o = .write name svc ∧ w' = w.put name svc := by
  cases o with
  | write name svc =>
    cases done
    exact .inr ⟨name, svc, rfl, rfl⟩
  | names | sleep =>
    simp only [act] at done
    split at done
    · cases done
      exact .inl rfl
    · cases done
  | writeFailures name count =>
    cases done
    exact .inl (World.setFailures_services count)
  | spawn name cmd =>
    simp only [act, actSpawn] at done
    split at done
    · cases done
      exact .inl rfl
    · split at done
      · cases done
      · cases done
        exact .inl rfl
  | tryWait name child =>
    simp only [act, actTryWait] at done
    split at done
    · cases done
      exact .inl rfl
    · split at done
      · cases done
      · split at done
        · cases done
          exact .inl rfl
        · cases done
          exact .inl rfl
  | wait name child =>
    simp only [act, actWait] at done
    split at done
    · cases done
    · split at done
      · cases done
      · cases done
        exact .inl rfl
  | unwrapNone => cases done
  | _ =>
    cases done
    exact .inl rfl

/-- A service in a crash loop stays in it. -/
theorem crashLooped_stays {w w' : World} {o : Op} {choice : Choice} {answer : Ans o} {name : String}
    (allowed : Allowed w o) (done : act w o choice = some (answer, w'))
    (looped : w.CrashLooped name) : w'.CrashLooped name := by
  obtain ⟨svc, found, looped⟩ := looped
  rcases act_services done with same | ⟨name', svc', rfl, rfl⟩
  · exact ⟨svc, by rw [same, found], looped⟩
  · by_cases same : name = name'
    · subst same
      exact ⟨svc', World.get_put_self, allowed svc found looped⟩
    · exact ⟨svc, by rw [World.get_put_of_ne same, found], looped⟩

/-- **The processes of the supervisor**, in every run: whatever the order of its passes, the
exits of the processes and the outcomes of spawns and checks. A service is spawned only when
its record holds no child. A signal goes to a process that was spawned for that service and
has not been reaped. A service that has been in a crash loop is not spawned. And after the
boot and after every pass, a service that is running or starting has a child, and its
recorded pid is that child's. -/
theorem supervise_processes (l : Launch) (busSocket : String) (passes : List Pass)
    (choices : List Choice) :
    (∀ e ∈ trace act (supervise busSocket l.order passes) l.start choices,
      (∀ name cmd, e.op = .spawn name cmd →
        e.before.childOf name = none ∧ ¬ e.before.CrashLooped name) ∧
      (∀ name pid signal, e.op = .kill name pid signal →
        ∃ p ∈ e.before.procs, p.service = name ∧ p.pid = pid ∧ p.held = true) ∧
      (∀ name child, e.op = .startKill name child →
        ∃ p ∈ e.before.procs, p.service = name ∧ p.id = child ∧ p.held = true)) ∧
    (trace act (supervise busSocket l.order passes) l.start choices).Pairwise (fun e e' =>
      ∀ name cmd, e.before.CrashLooped name → e'.op ≠ .spawn name cmd) ∧
    (∀ w rest, exec act (supervise busSocket l.order passes) l.start choices =
        some (.ok (), w, rest) → ∀ name svc, w.services.get name = some svc →
      svc.status = .running ∨ svc.status = .starting →
        ∃ p ∈ w.procs, p.service = name ∧ svc.child = some p.id ∧ svc.pid = some p.pid) := by
  have pre : wp act (relying fun _ _ _ => True) (supervise busSocket l.order passes)
      (fun result w => result = .ok () → w.Sound none ∧ w.Carries l.services) l.start :=
    wp_supervise_sound passes
  have relied : ∀ e ∈ trace act (supervise busSocket l.order passes) l.start choices,
      Event.Relied (relying fun _ _ _ => True) e := fun _ _ _ _ _ => trivial
  have allowed := wp_trace pre relied
  have spawned : ∀ e ∈ trace act (supervise busSocket l.order passes) l.start choices,
      ∀ name cmd, e.op = .spawn name cmd →
        e.before.childOf name = none ∧ ¬ e.before.CrashLooped name := by
    intro e mem name cmd isSpawn
    have guaranteed := allowed e mem
    rw [isSpawn] at guaranteed
    obtain ⟨svc, found, childless, notLooped⟩ := guaranteed
    refine ⟨by rw [World.childOf, found, Option.bind_some, childless], ?_⟩
    rintro ⟨svc', found', looped⟩
    cases found.symm.trans found'
    exact notLooped looped
  refine ⟨fun e mem => ⟨spawned e mem, ?_, ?_⟩, ?_, ?_⟩
  · intro name pid signal isKill
    have guaranteed := allowed e mem
    rw [isKill] at guaranteed
    obtain ⟨child, p, there, -, service, isPid, held⟩ := guaranteed
    exact ⟨p, there, service, isPid, held⟩
  · intro name child isKill
    have guaranteed := allowed e mem
    rw [isKill] at guaranteed
    obtain ⟨pid, p, there, isChild, service, -, held⟩ := guaranteed
    exact ⟨p, there, service, isChild, held⟩
  · have stays : ∀ name, (trace act (supervise busSocket l.order passes) l.start choices).Pairwise
        fun e e' => e.before.CrashLooped name → e'.before.CrashLooped name := fun name =>
      trace_pairwise (m := act) (fun w o choice answer w' allowed done =>
        crashLooped_stays allowed done) allowed
    rw [List.pairwise_iff_forall_sublist]
    intro e e' sub name cmd looped isSpawn
    have later := (List.pairwise_iff_forall_sublist.mp (stays name)) sub looped
    exact (spawned e' (sub.subset (by simp)) name cmd isSpawn).2 later
  · intro w rest run name svc found active
    obtain ⟨sound, -⟩ := wp_exec pre run relied rfl
    have agrees := sound.agrees name svc (by simp) found
    obtain ⟨child, has⟩ := Option.ne_none_iff_exists'.mp (agrees.active.mp active)
    obtain ⟨pid, recorded, p, there, rfl, service, rfl, -⟩ := agrees.owned child has
    exact ⟨p, there, service, has, recorded⟩

end Monitord
