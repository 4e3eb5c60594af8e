import UosTv.Monitord.QuietBoot

/-!
What a failed boot leaves running.

`ComesUp` says which services run after their turn in the boot, by the binaries that exist
and the spawns that succeed. The boot fails at the first critical service in the startup
order that does not come up; `main` then exits at once, and nothing stops the processes
that have been spawned. So none is left running iff no service before that one comes up
(`boot_failure_clean_iff`).
-/

namespace Monitord

open DependencyOrder Effect Rust

/-- The service runs after its turn: its binary exists, its spawn succeeds, and what it needs
has come up. -/
inductive ComesUp (services : List ServiceManifest) (o : BootInputs) : String → Prop where
  | up {manifest : ServiceManifest} (mem : manifest ∈ services)
      (present : o.present manifest.name = true) (spawns : o.spawns manifest.name = true)
      (deps : ∀ dep ∈ manifest.dependencies, ComesUp services o dep) :
      ComesUp services o manifest.name

theorem comesUp_iff {services : List ServiceManifest} {o : BootInputs} {manifest : ServiceManifest}
    (distinct : (names services).Nodup) (mem : manifest ∈ services) :
    ComesUp services o manifest.name ↔ o.present manifest.name = true ∧
      o.spawns manifest.name = true ∧ ∀ dep ∈ manifest.dependencies, ComesUp services o dep := by
  constructor
  · intro up
    generalize same : manifest.name = name at up
    cases up with
    | up mem' present spawns deps =>
      obtain rfl := List.inj_on_of_nodup_map distinct mem' mem same.symm
      exact ⟨present, spawns, deps⟩
  · rintro ⟨present, spawns, deps⟩
    exact .up mem present spawns deps

/-- After the services in `before` comes the first critical service that does not come up. -/
def FailsAfter (l : Launch) (o : BootInputs) (before : List ServiceManifest) : Prop :=
  ∃ manifest after, l.sorted = before ++ manifest :: after ∧ manifest.critical = true ∧
    ¬ ComesUp l.services o manifest.name ∧
    ∀ m ∈ before, m.critical = true → ComesUp l.services o m.name

/-- There is only one such place. -/
theorem FailsAfter.unique {l : Launch} {o : BootInputs} {before before' : List ServiceManifest}
    (fails : FailsAfter l o before) (fails' : FailsAfter l o before') : before = before' := by
  obtain ⟨m, after, split, critical, down, up⟩ := fails
  obtain ⟨m', after', split', critical', down', up'⟩ := fails'
  rcases List.append_eq_append_iff.mp (split.symm.trans split') with ⟨mid, rfl, rest⟩ | ⟨mid, rfl, rest⟩
  · cases mid with
    | nil => simp
    | cons first mid =>
      obtain ⟨rfl, -⟩ := List.cons.inj rest
      exact absurd (up' m (by simp) critical) down
  · cases mid with
    | nil => simp
    | cons first mid =>
      obtain ⟨rfl, -⟩ := List.cons.inj rest
      exact absurd (up m' (by simp) critical') down'

section Boot

variable {l : Launch} {o : BootInputs} {before after : List ServiceManifest} {m : ServiceManifest}
  {w w' : World} {busSocket : String} {result : Except String Unit}

theorem World.Later.procs {v v' : World} (later : v.Later v') :
    ∀ p ∈ v'.procs, ∃ q ∈ v.procs, q.service = p.service := by
  refine later.keeps (P := fun u => ∀ p ∈ u.procs, ∃ q ∈ v.procs, q.service = p.service) ?_ ?_
  · intro u choice from' p mem
    obtain ⟨q, mem', rfl⟩ := World.mem_procs_pass mem
    obtain ⟨q', mem'', same⟩ := from' q mem'
    exact ⟨q', mem'', by rw [same, (World.exitBy_fields _ q).2.2.1]⟩
  · exact fun p mem => ⟨p, mem, rfl⟩

/-- A start adds at most a process of the service. -/
theorem StartOutcome.procs {rely : World → (o : Op) → Ans o → Prop} {name : String}
    {svc : ServiceRuntime} (outcome : StartOutcome rely busSocket name svc w result w') :
    ∀ p ∈ w'.procs, (∃ q ∈ w.procs, q.service = p.service) ∨ result = .ok () ∧ p.service = name := by
  intro p mem
  cases outcome with
  | blocked _ later => exact .inl (later.procs p mem)
  | missing _ _ later => exact .inl (later.procs p mem)
  | refused _ _ _ later => exact .inl (later.procs p mem)
  | started _ _ _ earlier _ later =>
    obtain ⟨q, mem', same⟩ := later.procs p mem
    rcases List.mem_append.mp mem' with mem' | mem'
    · obtain ⟨q', mem'', same'⟩ := earlier.procs q mem'
      exact .inl ⟨q', mem'', same'.trans same⟩
    · rw [List.mem_singleton.mp mem'] at same
      exact .inr ⟨rfl, same.symm⟩

/-- The services in `before` have had their turn. -/
structure Booting (l : Launch) (o : BootInputs) (before : List ServiceManifest) (w : World) :
    Prop where
  running : ∀ m ∈ before, w.statusOf m.name = .running ↔ ComesUp l.services o m.name
  procs : ∀ p ∈ w.procs, ∃ m ∈ before, m.name = p.service ∧ ComesUp l.services o m.name
  critical : ∀ m ∈ before, m.critical = true → ComesUp l.services o m.name

/-- What the service whose turn it is needs runs iff it comes up. -/
theorem Booting.allRunning_iff (booting : Booting l o before w)
    (split : l.sorted = before ++ m :: after) :
    w.AllRunning m.dependencies ↔ ∀ dep ∈ m.dependencies, ComesUp l.services o dep := by
  have mem : m ∈ l.services := l.sorted_spec.1.mem_iff.mp (by rw [split]; simp)
  refine forall₂_congr fun dep needs => ?_
  -- What it needs has had its turn.
  have earlier : dep ∈ names before := by
    refine l.sorted_spec.2 (names before) m.name (names after) ?_ dep ⟨m, mem, rfl, needs⟩
    rw [Launch.order, split]
    simp [names]
  obtain ⟨m', mem', rfl⟩ := List.mem_map.mp earlier
  exact booting.running m' mem'

/-- The service whose turn it is is started iff it comes up. -/
theorem Booting.ok_iff (booting : Booting l o before w) (split : l.sorted = before ++ m :: after)
    (outcome : StartOutcome o.rely busSocket m.name (.new m) w result w') :
    result = .ok () ↔ ComesUp l.services o m.name := by
  have mem : m ∈ l.services := l.sorted_spec.1.mem_iff.mp (by rw [split]; simp)
  rw [outcome.ok_iff (fun _ _ _ answer => answer) fun _ _ _ answer => answer,
    comesUp_iff l.distinct mem, ← booting.allRunning_iff split]
  rfl

theorem Booting.other (split : l.sorted = before ++ m :: after) : ∀ m' ∈ before, m'.name ≠ m.name := by
  intro m' mem same
  have nodup := l.order_nodup
  rw [Launch.order, split, names, List.map_append, List.map_cons] at nodup
  exact (List.nodup_append.mp nodup).2.2 _ (List.mem_map_of_mem mem) _ List.mem_cons_self same

/-- After the turn of a service. -/
theorem Booting.turn (booting : Booting l o before w) (split : l.sorted = before ++ m :: after)
    (found : w.services.get m.name = some (.new m))
    (outcome : StartOutcome o.rely busSocket m.name (.new m) w result w')
    (goesOn : result = .ok () ∨ m.critical = false) : Booting l o (before ++ [m]) w' := by
  have started := booting.ok_iff split outcome
  constructor
  · intro m' mem
    rcases List.mem_append.mp mem with mem | mem
    · rw [World.statusOf, outcome.others (Booting.other split m' mem)]
      exact booting.running m' mem
    · rw [List.mem_singleton.mp mem, ← started]
      exact outcome.running_iff found (by rintro ⟨⟩)
  · intro p mem
    rcases outcome.procs p mem with ⟨q, mem', same⟩ | ⟨ok, isNew⟩
    · obtain ⟨m', mem'', named, up⟩ := booting.procs q mem'
      exact ⟨m', List.mem_append_left _ mem'', named.trans same, up⟩
    · exact ⟨m, by simp, isNew.symm, started.mp ok⟩
  · intro m' mem critical
    rcases List.mem_append.mp mem with mem | mem
    · exact booting.critical m' mem critical
    · obtain rfl := List.mem_singleton.mp mem
      rcases goesOn with ok | optional
      · exact started.mp ok
      · rw [critical] at optional
        cases optional

/-- After a turn in which a service has not been started. -/
theorem Booting.fail (booting : Booting l o before w) (split : l.sorted = before ++ m :: after)
    (outcome : StartOutcome o.rely busSocket m.name (.new m) w result w')
    (failed : result ≠ .ok ()) : Booting l o before w' := by
  constructor
  · intro m' mem
    rw [World.statusOf, outcome.others (Booting.other split m' mem)]
    exact booting.running m' mem
  · intro p mem
    rcases outcome.procs p mem with ⟨q, mem', same⟩ | ⟨ok, -⟩
    · obtain ⟨m', mem'', named, up⟩ := booting.procs q mem'
      exact ⟨m', mem'', named.trans same, up⟩
    · exact absurd ok failed
  · exact booting.critical

/-- How the boot of the first services in the startup order ends, and what has come up by then:
the turn of the others has not come. -/
theorem wp_boot_part (l : Launch) (busSocket : String) (o : BootInputs)
    {part rest : List ServiceManifest} (whole : l.sorted = part ++ rest) :
    wp act (relying o.rely) (boot busSocket (names part)) (fun result w => w.Sound none ∧
      (result = .ok () ∧ Booting l o part w ∧
          (∀ m ∈ rest, w.services.get m.name = some (.new m)) ∨
        (∃ e, result = .error e) ∧ (∃ m ∈ part, m.critical = true ∧ ¬ ComesUp l.services o m.name) ∧
          ∃ before, FailsAfter l o before ∧ Booting l o before w)) l.start := by
  have order : l.order = names part ++ names rest := by rw [Launch.order, whole, names, List.map_append]; rfl
  have nodup : (names part).Nodup := (List.nodup_append.mp (order ▸ l.order_nodup)).1
  have pending : ∀ name ∈ names part, l.start.Pending name := fun name mem =>
    l.pending_start name (order ▸ List.mem_append_left _ mem)
  refine wp_mono (wp_boot nodup pending l.sound_start
    (fun left w => ∃ before after, part = before ++ after ∧ names after = left ∧
      Booting l o before w ∧ ∀ m ∈ after ++ rest, w.services.get m.name = some (.new m))
    (fun w => (∃ m ∈ part, m.critical = true ∧ ¬ ComesUp l.services o m.name) ∧
      ∃ before, FailsAfter l o before ∧ Booting l o before w)
    ⟨[], part, rfl, rfl, ⟨by simp, by simp [Launch.start, World.init], by simp⟩, ?_⟩
    (fun _ _ _ _ _ _ => trivial) ?_) ?_
  · intro m mem
    exact l.get_start.mpr ⟨m, l.sorted_spec.1.mem_iff.mp (whole ▸ mem), rfl, rfl⟩
  · rintro name left w manifest result w' ⟨before, after, rfl, isLeft, booting, pending⟩ - found outcome
    cases after with
    | nil => cases isLeft
    | cons m after =>
      obtain ⟨rfl, rfl⟩ := List.cons.inj isLeft
      obtain ⟨here, later⟩ := List.forall_mem_cons.mp pending
      cases here.symm.trans found
      have split : l.sorted = before ++ manifest :: (after ++ rest) := by
        rw [whole, List.append_assoc, List.cons_append]
      constructor
      · intro goesOn
        refine ⟨before ++ [manifest], after, by simp, rfl,
          booting.turn split found outcome goesOn, fun m' mem => ?_⟩
        have other : m'.name ≠ manifest.name := by
          intro same
          have nodup := l.order_nodup
          rw [Launch.order, split, names, List.map_append, List.map_cons] at nodup
          refine (List.nodup_cons.mp (List.nodup_append.mp nodup).2.1).1 ?_
          rw [← same]
          exact List.mem_map_of_mem mem
        rw [outcome.others other]
        exact later m' mem
      · rintro e rfl critical
        have down : ¬ ComesUp l.services o manifest.name := by
          intro up
          cases (booting.ok_iff split outcome).mpr up
        exact ⟨⟨manifest, by simp, critical, down⟩, before,
          ⟨manifest, after ++ rest, split, critical, down, booting.critical⟩,
          booting.fail split outcome (by rintro ⟨⟩)⟩
  · rintro result w ⟨sound, ⟨ok, before, after, rfl, isLeft, booting, pending⟩ | failed⟩
    · obtain rfl : after = [] := List.map_eq_nil_iff.mp isLeft
      rw [List.append_nil]
      exact ⟨sound, .inl ⟨ok, booting, pending⟩⟩
    · exact ⟨sound, .inr failed⟩

/-- How the boot ends. -/
theorem wp_boot_booting (l : Launch) (busSocket : String) (o : BootInputs) :
    wp act (relying o.rely) (boot busSocket l.order) (fun result w => w.Sound none ∧
      (result = .ok () ∧ Booting l o l.sorted w ∨
        (∃ e, result = .error e) ∧ ∃ before, FailsAfter l o before ∧ Booting l o before w)) l.start := by
  refine wp_mono (wp_boot_part l busSocket o (List.append_nil _).symm) ?_
  rintro result w ⟨sound, ⟨ok, booting, -⟩ | ⟨failed, -, fails⟩⟩
  · exact ⟨sound, .inl ⟨ok, booting⟩⟩
  · exact ⟨sound, .inr ⟨failed, fails⟩⟩

/-- What has come up has a process. -/
theorem Booting.exists_proc (booting : Booting l o before w) (sound : w.Sound none) (mem : m ∈ before)
    (up : ComesUp l.services o m.name) : ∃ p ∈ w.procs, p.service = m.name := by
  have running := (booting.running m mem).mpr up
  unfold World.statusOf at running
  cases found : w.services.get m.name with
  | none =>
    rw [found] at running
    cases running
  | some svc =>
    rw [found] at running
    have agrees := sound.agrees m.name svc (Option.some_ne_none _) found
    obtain ⟨child, has⟩ := Option.ne_none_iff_exists'.mp (agrees.active.mp (.inl running))
    obtain ⟨pid, -, p, there, -, service, -⟩ := agrees.owned child has
    exact ⟨p, there, service⟩

end Boot

/-- **A boot that fails.** For given binaries and outcomes of spawns: in no run of the boot
that ends with an error a process of it is still running at the end iff, of the services
before the first critical one that does not come up, none comes up. -/
theorem boot_failure_clean_iff (l : Launch) (busSocket : String) (o : BootInputs) :
    (∀ choices e w rest, exec act (boot busSocket l.order) l.start choices =
        some (.error e, w, rest) →
      (∀ ev ∈ trace act (boot busSocket l.order) l.start choices, ev.Relied (relying o.rely)) →
      ∀ p ∈ w.procs, p.exit ≠ none) ↔
    ∀ before, FailsAfter l o before → ∀ m ∈ before, ¬ ComesUp l.services o m.name := by
  constructor
  · intro clean before fails m mem up
    obtain ⟨choices, result, w, run, relied, quiet⟩ := exists_quiet_boot l busSocket o
    obtain ⟨sound, ⟨-, booting⟩ | ⟨⟨e, rfl⟩, before', fails', booting⟩⟩ :=
      wp_exec (wp_boot_booting l busSocket o) run relied
    · obtain ⟨critical, after, split, isCritical, down, -⟩ := fails
      exact down (booting.critical critical (by rw [split]; simp) isCritical)
    · obtain rfl := fails.unique fails'
      obtain ⟨p, there, -⟩ := booting.exists_proc sound mem up
      exact clean choices e w [] run relied p there (quiet p there)
  · intro clean choices e w rest run relied p mem
    obtain ⟨sound, ⟨ok, -⟩ | ⟨-, before, fails, booting⟩⟩ :=
      wp_exec (wp_boot_booting l busSocket o) run relied
    · cases ok
    · obtain ⟨m, mem', -, up⟩ := booting.procs p mem
      exact absurd up (clean before fails m mem')

/-- The second service is critical and needs the first one. -/
def criticalServices : List ServiceManifest :=
  [.default "a" "/bin/a",
    { ServiceManifest.default "b" "/bin/b" with dependencies := ["a"], critical := true }]

def criticalLaunch : Launch := (launch? .listed .listed criticalServices).get (by decide)

/-- The binary of the second service is missing; the first one runs on. -/
theorem boot_failure_leaves_running : ∃ e w,
    exec act (boot "" criticalLaunch.order) criticalLaunch.start
      (List.replicate 21 { pid := 1 } ++ List.replicate 9 { found := false }) =
        some (.error e, w, []) ∧ ∃ p ∈ w.procs, p.service = "a" ∧ p.exit = none :=
  ⟨_, _, rfl, _, List.mem_cons_self, rfl, rfl⟩

end Monitord
