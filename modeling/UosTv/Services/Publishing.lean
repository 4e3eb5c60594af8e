import UosTv.Services.Muting

/-!
The order in which `audiod` publishes its state.

`publish_state` takes the state down at once and leaves the sending to a task of its own, and the
runtime may run such tasks in any order. So the last status on the bus may be any of those that
have been taken down, and it is right in every order iff they are all the same
(`last_status_iff`).
-/

namespace Audiod

open SerdeJson Stardust

/-- What makes `audiod` publish: a command, or `main`, which does it at the start and every
minute. -/
inductive Event where
  | command (msg : Message)
  | publish

/-- The operation that a command asks for. -/
def Event.op (formats : Formats) : Event → Option VolumeOp
  | command msg =>
    if msg.method = "audio.command.set_volume" then
      (formats.read msg.params : Option UInt32).map .setVolume
    else if msg.method = "audio.command.mute" then some .toggleMute
    else if msg.method = "audio.command.volume_up" then some .volumeUp
    else if msg.method = "audio.command.volume_down" then some .volumeDown
    else none
  | publish => none

/-- What `audiod` does when something happens. -/
def VolumeController.handle (vc : VolumeController) (formats : Formats) (stamp : Stamp) :
    Event → VolumeController × Option Message
  | .command msg => vc.handleCommand formats stamp msg
  | .publish => (vc, vc.publishState formats stamp)

/-- Something happens, or the runtime runs the `i`-th of the tasks that are waiting. -/
inductive Step where
  | event (e : Event) (stamp : Stamp)
  | task (i : Nat)

def Step.event? : Step → Option Event
  | event e _ => some e
  | task _ => none

/-- The volume, the tasks that have not run yet, each with its message, and what has been sent, the
last first. The bus is taken to be there. -/
structure Daemon where
  volume : VolumeController
  spawned : List Message
  sent : List Message

namespace Daemon

def start : Daemon := ⟨.new, [], []⟩

def step (formats : Formats) (d : Daemon) : Step → Option Daemon
  | .event e stamp =>
    let after := d.volume.handle formats stamp e
    some { d with volume := after.1, spawned := d.spawned ++ after.2.toList }
  | .task i =>
    d.spawned[i]?.map fun msg => { d with spawned := d.spawned.eraseIdx i, sent := msg :: d.sent }

/-- A run, the newest step first. -/
def run (formats : Formats) : List Step → Option Daemon
  | [] => some start
  | s :: steps => (run formats steps).bind (step formats · s)

end Daemon

/-- What has happened in a run, the newest first. -/
def events (steps : List Step) : List Event := steps.filterMap Step.event?

/-- The volume after some events. -/
def after (formats : Formats) (es : List Event) : VolumeController :=
  controller (es.filterMap (Event.op formats))

/-- A task is spawned, unless the command asks for nothing. -/
def Event.publishes (formats : Formats) : Event → Bool
  | command msg => ((command msg).op formats).isSome
  | publish => true

/-- The message carries the volume and the muting. -/
def Carries (formats : Formats) (msg : Message) (vc : VolumeController) : Prop :=
  formats.parseParamsToValue msg.params = .object [("payload", vc.payload)]

/-- The operation leaves the volume and the muting as they are. -/
def Idle (vc : VolumeController) : VolumeOp → Prop
  | .setVolume vol => min vol maxVolume = vc.volume
  | .volumeUp => vc.volume = maxVolume ∧ vc.muted = false
  | .volumeDown => vc.volume = 0
  | .toggleMute => False

/-- What is published in any order is right, whatever the runtime does. -/
def Settled (formats : Formats) (es : List Event) : Prop :=
  ∀ steps d, Daemon.run formats steps = some d → events steps = es → d.spawned = [] →
    ∀ msg, d.sent.head? = some msg → Carries formats msg d.volume

/-! ### One event -/

section Event

variable {formats : Formats} {stamp : Stamp} {vc vc' : VolumeController} {e : Event}

theorem publishState_carries (formats : Formats) (stamp : Stamp) (vc : VolumeController) :
    ∃ msg, vc.publishState formats stamp = some msg ∧ Carries formats msg vc :=
  exists_statusMessage formats stamp "audio.status" "audiod" vc.canonical_payload

theorem handle_of_op {op : VolumeOp} (asked : e.op formats = some op) :
    vc.handle formats stamp e = (op.apply vc, (op.apply vc).publishState formats stamp) := by
  cases e with
  | publish => cases asked
  | command msg =>
    change vc.handleCommand formats stamp msg = _
    rw [VolumeController.handleCommand]
    rw [Event.op] at asked
    split_ifs at asked ⊢ with set mute up down
    · cases read : (formats.read msg.params : Option UInt32) with
      | none =>
        rw [read] at asked
        cases asked
      | some vol =>
        rw [read] at asked
        cases asked
        rfl
    · cases asked
      rfl
    · cases asked
      rfl
    · cases asked
      rfl

theorem handle_of_none {msg : Message} (ignored : (Event.command msg).op formats = none) :
    vc.handle formats stamp (.command msg) = (vc, none) := by
  change vc.handleCommand formats stamp msg = _
  rw [VolumeController.handleCommand]
  rw [Event.op] at ignored
  split_ifs at ignored ⊢ with set mute up down
  · rw [Option.map_eq_none_iff.mp ignored]
  · rfl

theorem exists_payload (vc : VolumeController) : ∃ entries, vc.payload = .object entries ∧
    get entries "volume" = some (Serde.toValue vc.volume) ∧
    get entries "muted" = some (.bool vc.muted) :=
  ⟨_, rfl, get_collect (by simp), get_collect (by simp)⟩

theorem payload_inj : vc.payload = vc'.payload ↔ vc.volume = vc'.volume ∧ vc.muted = vc'.muted := by
  constructor
  · intro same
    obtain ⟨entries, object, volume, muted⟩ := exists_payload vc
    obtain ⟨entries', object', volume', muted'⟩ := exists_payload vc'
    obtain rfl := Value.object.inj (object.symm.trans (same.trans object'))
    have level : (Serde.fromValue (Serde.toValue vc.volume) : Option UInt32) =
        Serde.fromValue (Serde.toValue vc'.volume) :=
      congrArg Serde.fromValue (Option.some.inj (volume.symm.trans volume'))
    rw [Serde.fromValue_toValue, Serde.fromValue_toValue] at level
    exact ⟨Option.some.inj level, Value.bool.inj (Option.some.inj (muted.symm.trans muted'))⟩
  · rintro ⟨volume, muted⟩
    rw [VolumeController.payload, VolumeController.payload, volume, muted]

/-- A message carries two states iff they have the same volume and the same muting. -/
theorem Carries.iff {msg : Message} (carries : Carries formats msg vc) :
    Carries formats msg vc' ↔ vc.volume = vc'.volume ∧ vc.muted = vc'.muted := by
  rw [Carries] at carries ⊢
  rw [carries, ← payload_inj]
  simp

theorem min_step_iff {vol : UInt32} (bounded : vol ≤ maxVolume) :
    min (vol + volumeStep) maxVolume = vol ↔ vol = maxVolume := by
  have small := UInt32.le_iff_toNat_le.mp bounded
  have sum : (vol + volumeStep).toNat = vol.toNat + 5 := by
    rw [UInt32.toNat_add]
    exact Nat.mod_eq_of_lt (by change vol.toNat ≤ 100 at small; change vol.toNat + 5 < _; omega)
  constructor
  · intro same
    rw [min_maxVolume] at same
    split at same
    · have same := congrArg UInt32.toNat same
      omega
    · exact same.symm
  · rintro rfl
    rfl

theorem idle_iff (bounded : Bounded vc) (op : VolumeOp) :
    Idle vc op ↔ (op.apply vc).volume = vc.volume ∧ (op.apply vc).muted = vc.muted := by
  cases op with
  | setVolume vol => exact ⟨fun same => ⟨volume_setVolume.trans same, rfl⟩,
      fun same => volume_setVolume.symm.trans same.1⟩
  | volumeUp =>
    change vc.volume = maxVolume ∧ vc.muted = false ↔
      min (vc.volume + volumeStep) maxVolume = vc.volume ∧ false = vc.muted
    rw [min_step_iff bounded.volume, eq_comm (a := false)]
  | volumeDown =>
    change vc.volume = 0 ↔ vc.volumeDown.volume = vc.volume ∧ vc.muted = vc.muted
    rw [volume_volumeDown, and_iff_left rfl]
    constructor
    · intro zero
      rw [zero]
      rfl
    · intro same
      split at same
      · rename_i enough
        have less := congrArg UInt32.toNat same
        rw [UInt32.toNat_sub_of_le _ _ enough] at less
        have large := UInt32.le_iff_toNat_le.mp enough
        change vc.volume.toNat - 5 = _ at less
        change 5 ≤ _ at large
        omega
      · exact same.symm
  | toggleMute =>
    change False ↔ vc.toggleMute.volume = vc.volume ∧ vc.toggleMute.muted = vc.muted
    rw [VolumeController.toggleMute]
    cases muted : vc.muted with
    | true => simp
    | false => simp

end Event

/-! ### What is taken down -/

section Snapshots

variable {formats : Formats} {e : Event} {es : List Event}

/-- The states that are taken down, the newest first. -/
def snapshots (formats : Formats) : List Event → List VolumeController
  | [] => []
  | e :: es =>
    if e.publishes formats then after formats (e :: es) :: snapshots formats es
    else snapshots formats es

theorem snapshots_of_publishes (publishes : e.publishes formats) :
    snapshots formats (e :: es) = after formats (e :: es) :: snapshots formats es :=
  if_pos publishes

theorem snapshots_of_not (silent : ¬ e.publishes formats) :
    snapshots formats (e :: es) = snapshots formats es := if_neg silent

theorem op_of_not (silent : ¬ e.publishes formats) : e.op formats = none := by
  cases e with
  | publish => rfl
  | command msg => exact Option.not_isSome_iff_eq_none.mp silent

theorem publishes_of_op {op : VolumeOp} (asked : e.op formats = some op) : e.publishes formats := by
  cases e with
  | publish => rfl
  | command msg => exact Option.isSome_iff_exists.mpr ⟨op, asked⟩

theorem after_of_none (none_asked : e.op formats = none) :
    after formats (e :: es) = after formats es := by
  rw [after, List.filterMap_cons_none none_asked, after]

theorem after_of_op {op : VolumeOp} (asked : e.op formats = some op) :
    after formats (e :: es) = op.apply (after formats es) := by
  rw [after, List.filterMap_cons_some asked, controller, after]

/-- The state that was taken down last is that of the device. -/
theorem after_eq_of_head {vc : VolumeController} (last : (snapshots formats es).head? = some vc) :
    after formats es = vc := by
  induction es with
  | nil => cases last
  | cons e es ih =>
    by_cases publishes : e.publishes formats
    · rw [snapshots_of_publishes publishes] at last
      exact Option.some.inj last
    · rw [snapshots_of_not publishes] at last
      rw [after_of_none (op_of_not publishes)]
      exact ih last

theorem snapshots_ne_nil : snapshots formats es ≠ [] ↔ ∃ e ∈ es, e.publishes formats := by
  induction es with
  | nil => simp [snapshots]
  | cons e es ih =>
    by_cases publishes : e.publishes formats
    · simp [snapshots_of_publishes publishes, publishes]
    · simp [snapshots_of_not publishes, publishes, ih]

/-- The volume and the muting are the same in both states. -/
def Same (vc vc' : VolumeController) : Prop := vc.volume = vc'.volume ∧ vc.muted = vc'.muted

/-- What is taken down is the same each time iff no operation that follows a publication changes
anything. -/
theorem forall_snapshots_iff :
    (∀ vc ∈ snapshots formats es, Same vc (after formats es)) ↔
      ∀ e past, e :: past <:+ es → (∃ e' ∈ past, e'.publishes formats) →
        ∀ op, e.op formats = some op → Idle (after formats past) op := by
  induction es with
  | nil => exact ⟨fun _ => Past.forall_moments_nil, fun _ vc mem => by cases mem⟩
  | cons e es ih =>
    rw [Past.forall_moments_cons, ← ih]
    cases asked : e.op formats with
    | none =>
      have same : after formats (e :: es) = after formats es := after_of_none asked
      rw [same, and_iff_right (by rintro _ _ ⟨⟩)]
      by_cases publishes : e.publishes formats
      · rw [snapshots_of_publishes publishes, same, List.forall_mem_cons]
        exact and_iff_right ⟨rfl, rfl⟩
      · rw [snapshots_of_not publishes]
    | some op =>
      have publishes := publishes_of_op asked
      have idle := idle_iff (bounded_controller (es.filterMap (Event.op formats))) op
      rw [snapshots_of_publishes publishes, List.forall_mem_cons, and_iff_right ⟨rfl, rfl⟩,
        after_of_op asked, ← snapshots_ne_nil]
      cases taken : snapshots formats es with
      | nil => simp
      | cons vc vcs =>
        have last : after formats es = vc := after_eq_of_head (by rw [taken]; rfl)
        constructor
        · intro all
          obtain ⟨volume, muted⟩ := all vc (List.mem_cons_self ..)
          rw [← last] at volume muted
          refine ⟨fun _ op' asked' => ?_, fun vc' mem => ?_⟩
          · obtain rfl := Option.some.inj asked'
            exact idle.mpr ⟨volume.symm, muted.symm⟩
          · exact ⟨(all vc' mem).1.trans volume.symm, (all vc' mem).2.trans muted.symm⟩
        · rintro ⟨quiet, all⟩ vc' mem
          obtain ⟨volume, muted⟩ := idle.mp (quiet (by simp) op rfl)
          exact ⟨(all vc' mem).1.trans volume.symm, (all vc' mem).2.trans muted.symm⟩

end Snapshots

/-! ### Runs -/

section Runs

variable {formats : Formats} {steps : List Step} {d : Daemon}

/-- What a step does. -/
theorem step_cases {d' : Daemon} {s : Step} (stepped : Daemon.step formats d s = some d') :
    (∃ e stamp, s = .event e stamp ∧
      d' = { d with
        volume := (d.volume.handle formats stamp e).1,
        spawned := d.spawned ++ (d.volume.handle formats stamp e).2.toList }) ∨
    ∃ i msg, s = .task i ∧ d.spawned[i]? = some msg ∧
      d' = { d with spawned := d.spawned.eraseIdx i, sent := msg :: d.sent } := by
  cases s with
  | event e stamp => exact .inl ⟨e, stamp, rfl, (Option.some.inj stepped).symm⟩
  | task i =>
    obtain ⟨msg, some_msg, same⟩ := Option.map_eq_some_iff.mp stepped
    exact .inr ⟨i, msg, rfl, some_msg, same.symm⟩

/-- What an event does to the state and to what is taken down. -/
theorem handle_after (formats : Formats) (e : Event) (es : List Event) (stamp : Stamp) :
    ((after formats es).handle formats stamp e).1 = after formats (e :: es) ∧
      ((∃ msg, ((after formats es).handle formats stamp e).2 = some msg ∧
          Carries formats msg (after formats (e :: es)) ∧
          snapshots formats (e :: es) = after formats (e :: es) :: snapshots formats es) ∨
        ((after formats es).handle formats stamp e).2 = none ∧
          snapshots formats (e :: es) = snapshots formats es) := by
  cases asked : e.op formats with
  | some op =>
    obtain ⟨msg, published, carries⟩ :=
      publishState_carries formats stamp (op.apply (after formats es))
    rw [handle_of_op asked, snapshots_of_publishes (publishes_of_op asked), after_of_op asked]
    exact ⟨rfl, .inl ⟨msg, published, carries, rfl⟩⟩
  | none =>
    rw [after_of_none asked]
    cases e with
    | command msg =>
      have silent : ¬ (Event.command msg).publishes formats :=
        Option.not_isSome_iff_eq_none.mpr asked
      rw [handle_of_none asked, snapshots_of_not silent]
      exact ⟨rfl, .inr ⟨rfl, rfl⟩⟩
    | publish =>
      obtain ⟨msg, published, carries⟩ := publishState_carries formats stamp (after formats es)
      rw [snapshots_of_publishes rfl, after_of_none asked]
      exact ⟨rfl, .inl ⟨msg, published, carries, rfl⟩⟩

theorem run_volume (ran : Daemon.run formats steps = some d) :
    d.volume = after formats (events steps) := by
  induction steps generalizing d with
  | nil =>
    cases ran
    rfl
  | cons s steps ih =>
    obtain ⟨before, earlier, stepped⟩ := Option.bind_eq_some_iff.mp ran
    obtain ⟨e, stamp, rfl, rfl⟩ | ⟨i, msg, rfl, -, rfl⟩ := step_cases stepped
    · rw [ih earlier]
      exact (handle_after formats e (events steps) stamp).1
    · have same := ih earlier
      exact same

/-- What waits or has been sent carries a state that has been taken down. -/
theorem run_carries (ran : Daemon.run formats steps = some d) :
    ∀ msg ∈ d.spawned ++ d.sent,
      ∃ vc ∈ snapshots formats (events steps), Carries formats msg vc := by
  induction steps generalizing d with
  | nil =>
    cases ran
    rintro msg ⟨⟩
  | cons s steps ih =>
    obtain ⟨before, earlier, stepped⟩ := Option.bind_eq_some_iff.mp ran
    obtain ⟨e, stamp, rfl, rfl⟩ | ⟨i, msg, rfl, waiting, rfl⟩ := step_cases stepped
    · change ∀ msg ∈ _, ∃ vc ∈ snapshots formats (e :: events steps), _
      rw [run_volume earlier]
      obtain ⟨-, ⟨msg, published, carries, taken⟩ | ⟨silent, taken⟩⟩ :=
        handle_after formats e (events steps) stamp
      · rw [published, taken]
        intro msg' mem
        simp only [Option.toList_some, List.mem_append, List.mem_singleton] at mem
        rcases mem with (waits | rfl) | sent
        · obtain ⟨vc, old, same⟩ := ih earlier msg' (List.mem_append_left _ waits)
          exact ⟨vc, List.mem_cons_of_mem _ old, same⟩
        · exact ⟨_, List.mem_cons_self .., carries⟩
        · obtain ⟨vc, old, same⟩ := ih earlier msg' (List.mem_append_right _ sent)
          exact ⟨vc, List.mem_cons_of_mem _ old, same⟩
      · rw [silent, taken, Option.toList_none, List.append_nil]
        have carried := ih earlier
        exact carried
    · intro msg' mem
      refine ih earlier msg' ?_
      rcases List.mem_append.mp mem with waits | sent
      · exact List.mem_append_left _ (List.mem_of_mem_eraseIdx waits)
      · rcases List.mem_cons.mp sent with rfl | sent
        · exact List.mem_append_left _ (List.mem_of_getElem? waiting)
        · exact List.mem_append_right _ sent

/-- As long as the oldest task is run each time, the states are sent in their order. -/
theorem run_in_order (ran : Daemon.run formats steps = some d)
    (oldest : ∀ i, Step.task i ∈ steps → i = 0) :
    List.Forall₂ (Carries formats) (d.spawned.reverse ++ d.sent)
      (snapshots formats (events steps)) := by
  induction steps generalizing d with
  | nil =>
    cases ran
    exact .nil
  | cons s steps ih =>
    obtain ⟨before, earlier, stepped⟩ := Option.bind_eq_some_iff.mp ran
    have sent := ih earlier fun i mem => oldest i (List.mem_cons_of_mem _ mem)
    obtain ⟨e, stamp, rfl, rfl⟩ | ⟨i, msg, rfl, waiting, rfl⟩ := step_cases stepped
    · change List.Forall₂ _ _ (snapshots formats (e :: events steps))
      rw [run_volume earlier]
      obtain ⟨-, ⟨msg, published, carries, taken⟩ | ⟨silent, taken⟩⟩ :=
        handle_after formats e (events steps) stamp
      · rw [published, taken, Option.toList_some, List.reverse_append]
        exact .cons carries sent
      · rw [silent, taken, Option.toList_none, List.append_nil]
        exact sent
    · obtain rfl := oldest i (List.mem_cons_self ..)
      cases tasks : before.spawned with
      | nil =>
        rw [tasks] at waiting
        cases waiting
      | cons first rest =>
        rw [tasks] at waiting sent
        cases waiting
        rw [List.reverse_cons, List.append_assoc] at sent
        exact sent

/-- The tasks in the middle can be run first. -/
theorem exists_run_erase (kept gone rest : List Message)
    (ran : Daemon.run formats steps = some d) (waiting : d.spawned = kept ++ gone ++ rest) :
    ∃ more sent, events more = [] ∧
      Daemon.run formats (more ++ steps) =
        some { d with spawned := kept ++ rest, sent := sent } := by
  induction gone generalizing steps d with
  | nil =>
    refine ⟨[], d.sent, rfl, ?_⟩
    rw [List.append_nil] at waiting
    rw [← waiting]
    exact ran
  | cons msg gone ih =>
    have next : Daemon.run formats (.task kept.length :: steps) =
        some { d with spawned := kept ++ gone ++ rest, sent := msg :: d.sent } := by
      rw [Daemon.run, ran, Option.bind_some, Daemon.step, waiting]
      simp [List.eraseIdx_append_of_length_le]
    obtain ⟨more, sent, quiet, ran'⟩ := ih next rfl
    refine ⟨more ++ [.task kept.length], sent, ?_, ?_⟩
    · rw [events, List.filterMap_append, ← events, quiet]
      rfl
    · rw [List.append_assoc]
      exact ran'

/-- Any task can be the last that is run. -/
theorem exists_run_last {msg : Message} (ran : Daemon.run formats steps = some d)
    (waits : msg ∈ d.spawned) :
    ∃ steps' d', Daemon.run formats steps' = some d' ∧ events steps' = events steps ∧
      d'.spawned = [] ∧ d'.sent.head? = some msg := by
  obtain ⟨before, later, split⟩ := List.append_of_mem waits
  obtain ⟨more, sent, quiet, first⟩ :=
    exists_run_erase [] before (msg :: later) ran split
  obtain ⟨more', sent', quiet', second⟩ :=
    exists_run_erase [msg] later [] first (by simp)
  refine ⟨.task 0 :: (more' ++ (more ++ steps)), { d with spawned := [], sent := msg :: sent' }, ?_,
    ?_, rfl, rfl⟩
  · rw [Daemon.run, second]
    rfl
  · change events (more' ++ (more ++ steps)) = events steps
    simp only [events, List.filterMap_append] at quiet quiet' ⊢
    rw [quiet, quiet', List.nil_append, List.nil_append]

theorem exists_run_events (formats : Formats) (es : List Event) :
    ∃ steps d, Daemon.run formats steps = some d ∧ events steps = es ∧ d.sent = [] ∧
      ∀ i, Step.task i ∉ steps := by
  induction es with
  | nil => exact ⟨[], .start, rfl, rfl, rfl, by rintro i ⟨⟩⟩
  | cons e es ih =>
    obtain ⟨steps, d, ran, same, unsent, none_run⟩ := ih
    obtain ⟨d', stepped, unsent'⟩ :
        ∃ d', Daemon.step formats d (.event e ⟨0, 0⟩) = some d' ∧ d'.sent = [] := ⟨_, rfl, unsent⟩
    refine ⟨.event e ⟨0, 0⟩ :: steps, d', ?_, congrArg (e :: ·) same, unsent', fun i mem => ?_⟩
    · rw [Daemon.run, ran, Option.bind_some, stepped]
    · rcases List.mem_cons.mp mem with same | mem
      · cases same
      · exact none_run i mem

theorem exists_carries {msgs : List Message} {vcs : List VolumeController} {vc : VolumeController}
    (all : List.Forall₂ (Carries formats) msgs vcs) (mem : vc ∈ vcs) :
    ∃ msg ∈ msgs, Carries formats msg vc := by
  induction all with
  | nil => cases mem
  | cons carries _ ih =>
    rcases List.mem_cons.mp mem with rfl | mem
    · exact ⟨_, List.mem_cons_self .., carries⟩
    · obtain ⟨msg, later, carries⟩ := ih mem
      exact ⟨msg, List.mem_cons_of_mem _ later, carries⟩

/-- What is sent last is right in every order iff all that is taken down is the same. -/
theorem settled_iff {es : List Event} :
    Settled formats es ↔ ∀ vc ∈ snapshots formats es, Same vc (after formats es) := by
  constructor
  · intro settled vc taken
    obtain ⟨steps, d, ran, rfl, unsent, none_run⟩ := exists_run_events formats es
    have all := run_in_order ran fun i mem => absurd mem (none_run i)
    rw [unsent, List.append_nil] at all
    obtain ⟨msg, waits, carries⟩ := exists_carries all taken
    obtain ⟨steps', d', ran', same, done, last⟩ := exists_run_last ran (List.mem_reverse.mp waits)
    have right := settled steps' d' ran' same done msg last
    rw [run_volume ran', same] at right
    exact carries.iff.mp right
  · rintro same steps d ran rfl done msg last
    have mem : msg ∈ d.sent := List.mem_of_mem_head? last
    obtain ⟨vc, taken, carries⟩ := run_carries ran msg (List.mem_append_right _ mem)
    rw [run_volume ran]
    exact carries.iff.mpr (same vc taken)

end Runs

/-- **The last status is right in every order in which the tasks may run iff** no command that
follows a publication changes the volume or the muting. It is right in the order of the tasks,
whatever the commands are. -/
theorem last_status_iff (formats : Formats) (es : List Event) :
    (Settled formats es ↔
      ∀ e past, e :: past <:+ es → (∃ e' ∈ past, e'.publishes formats) →
        ∀ op, e.op formats = some op → Idle (after formats past) op) ∧
    ∀ steps d, Daemon.run formats steps = some d → events steps = es →
      (∀ i, Step.task i ∈ steps → i = 0) → d.spawned = [] →
      ∀ msg, d.sent.head? = some msg → Carries formats msg d.volume := by
  refine ⟨settled_iff.trans forall_snapshots_iff, ?_⟩
  rintro steps d ran rfl oldest done msg last
  have all := run_in_order ran oldest
  rw [done] at all
  rw [run_volume ran]
  cases taken : snapshots formats (events steps) with
  | nil =>
    rw [taken] at all
    have unsent : d.sent = [] := List.forall₂_nil_right_iff.mp all
    rw [unsent] at last
    cases last
  | cons vc vcs =>
    rw [taken] at all
    obtain ⟨msg', sent, carries, -, same⟩ := List.forall₂_cons_right_iff.mp all
    change d.sent = _ at same
    rw [same] at last
    obtain rfl := Option.some.inj last
    rw [after_eq_of_head (by rw [taken]; rfl)]
    exact carries

/-- The command of the volume key. -/
def volumeUpKey : Event := .command (Message.new ⟨0, 0⟩ "audio.command.volume_up")

/-- Two presses of the volume key, and the second task is the first that is run: the last status
has the volume 75, and it is 80. -/
theorem last_status_outdated : ∃ d msg,
    Daemon.run textFormats
        [.task 0, .task 1, .event volumeUpKey ⟨2, 0⟩, .event volumeUpKey ⟨1, 0⟩] = some d ∧
      d.spawned = [] ∧ d.sent.head? = some msg ∧ d.volume = ⟨80, false, 70⟩ ∧
      Carries textFormats msg ⟨75, false, 70⟩ ∧ ¬ Carries textFormats msg d.volume := by
  have asked : volumeUpKey.op textFormats = some .volumeUp := rfl
  have up : VolumeOp.apply .new .volumeUp = ⟨75, false, 70⟩ := by decide
  have up' : VolumeOp.apply ⟨75, false, 70⟩ .volumeUp = ⟨80, false, 70⟩ := by decide
  obtain ⟨first, published, carries⟩ := publishState_carries textFormats ⟨1, 0⟩ ⟨75, false, 70⟩
  obtain ⟨second, published', -⟩ := publishState_carries textFormats ⟨2, 0⟩ ⟨80, false, 70⟩
  have once : Daemon.run textFormats [.event volumeUpKey ⟨1, 0⟩] =
      some ⟨⟨75, false, 70⟩, [first], []⟩ := by
    change some _ = some _
    rw [Daemon.start, handle_of_op asked, up, published]
    rfl
  have twice : Daemon.run textFormats [.event volumeUpKey ⟨2, 0⟩, .event volumeUpKey ⟨1, 0⟩] =
      some ⟨⟨80, false, 70⟩, [first, second], []⟩ := by
    rw [Daemon.run, once]
    change some _ = some _
    rw [handle_of_op asked, up', published']
    rfl
  refine ⟨⟨⟨80, false, 70⟩, [], [first, second]⟩, first, ?_, rfl, rfl, rfl, carries,
    fun wrong => ?_⟩
  · rw [Daemon.run, Daemon.run, twice]
    rfl
  · have level : (75 : UInt32) = 80 := (carries.iff.mp wrong).1
    exact absurd level (by decide)

end Audiod
