import UosTv.Otad.Installs

/-!
An installed update that waits for the reboot, under the polling loop.

Every turn of the loop begins with `Checking`, whatever the state is. So a pending update is
left alone iff the loop goes to no other turn after an update has been installed
(`pending_kept_iff`).
-/

namespace Otad

open Effect Rust UpdateVerify

variable {Key Value : Type}

/-- The states of a check for updates, of a download and of an install. -/
def OtaState.Repeats : OtaState → Prop
  | .checking | .updateAvailable _ _ _ | .downloading _ _ | .downloaded _ _ | .verifying _
  | .installing _ => True
  | _ => False

/-- After an update has been installed and waits for the reboot, its bundle is not installed
again, and no state of a check, a download or an install is entered. A reboot that succeeds
ends the run. -/
def PendingKept (log : List Entry) : Prop :=
  ∀ newer version older, log = newer ++ .state (.waitingReboot version) :: older →
    (∀ path, older.head? = some (.install path) → .install path ∉ newer) ∧
      ∀ state, .state state ∈ newer → ¬ state.Repeats

/-- An update has been installed. -/
def Installed (log : List Entry) : Prop := ∃ version, .state (.waitingReboot version) ∈ log

/-! ### One turn -/

section Logs

variable {orch : Orchestrator} {result : Except Failure Unit} {log before : List Entry}

theorem PendingKept.of_append (kept : PendingKept (log ++ before)) : PendingKept before := by
  intro newer version older split
  obtain ⟨once, left⟩ := kept (log ++ newer) version older (by rw [split, List.append_assoc])
  constructor
  · intro path installed mem
    exact once path installed (List.mem_append_right _ mem)
  · intro state mem
    exact left state (List.mem_append_right _ mem)

/-- What a turn adds to the log. -/
def turnLog (result : Except Failure Unit) (es : List Entry) : List Entry :=
  match result with
  | .ok _ => es
  | .error e => .state (.error e.display) :: es

theorem CheckLog.checking_mem (ends : CheckLog orch result log) : .state .checking ∈ log := by
  cases ends <;>
    simp [pendingLog, installLog, acceptedLog, verifyingLog, downloadingLog, checkingLog]

theorem not_installed_installLog (path : String) (info : UpdateInfo) (slots : List SlotStatus)
    {newer older : List Entry} {version : String} :
    installLog path info slots ≠ newer ++ .state (.waitingReboot version) :: older := by
  intro split
  have mem : .state (.waitingReboot version) ∈ installLog path info slots := by
    rw [split]
    exact List.mem_append_cons_self
  simp [installLog, acceptedLog, verifyingLog, downloadingLog, checkingLog] at mem

/-- After the update has been installed a call at most reboots. -/
theorem CheckLog.after_install (ends : CheckLog orch result log) {newer older : List Entry}
    {version : String} (split : log = newer ++ .state (.waitingReboot version) :: older) :
    result = .ok () ∧ (newer = [] ∨ newer = [.reboot, .state .rebooting]) := by
  have mem : .state (.waitingReboot version) ∈ log := by
    rw [split]
    exact List.mem_append_cons_self
  cases ends with
  | pending info slots automatic stays =>
    rcases newer with _ | ⟨e, newer⟩
    · exact ⟨rfl, .inl rfl⟩
    · exact absurd (List.cons.inj split).2 (not_installed_installLog _ info slots)
  | rebooting info slots automatic reboots =>
    rcases newer with _ | ⟨e, _ | ⟨e', _ | ⟨e'', newer⟩⟩⟩
    · cases split
    · cases split
    · cases split
      exact ⟨rfl, .inr rfl⟩
    · have split := (List.cons.inj (List.cons.inj (List.cons.inj split).2).2).2
      exact absurd split (not_installed_installLog _ info slots)
  | _ => simp [installLog, acceptedLog, verifyingLog, downloadingLog, checkingLog] at mem

theorem CheckLog.turn_after_install (ends : CheckLog orch result log) {newer older : List Entry}
    {version : String} (split : turnLog result log = newer ++ .state (.waitingReboot version) :: older) :
    newer = [] ∨ newer = [.reboot, .state .rebooting] := by
  cases result with
  | ok _ => exact (ends.after_install split).2
  | error e =>
    cases newer with
    | nil => cases split
    | cons entry newer => cases (ends.after_install (List.cons.inj split).2).1

/-- A turn leaves a pending update alone iff there is none. -/
theorem CheckLog.pendingKept_iff (ends : CheckLog orch result log) :
    PendingKept (turnLog result log ++ before) ↔ PendingKept before ∧ ¬ Installed before := by
  have checking : .state .checking ∈ turnLog result log := by
    cases result with
    | ok _ => exact ends.checking_mem
    | error e => exact List.mem_cons_of_mem _ ends.checking_mem
  constructor
  · intro kept
    refine ⟨kept.of_append, ?_⟩
    rintro ⟨version, mem⟩
    obtain ⟨newer, older, split⟩ := List.append_of_mem mem
    obtain ⟨-, left⟩ := kept (turnLog result log ++ newer) version older
      (by rw [split, List.append_assoc])
    exact left .checking (List.mem_append_left _ checking) trivial
  · rintro ⟨-, fresh⟩ newer version older split
    have here : ∃ mid, turnLog result log = newer ++ Entry.state (.waitingReboot version) :: mid := by
      rcases List.append_eq_append_iff.mp split with ⟨ms, -, rest⟩ | ⟨ms, turn, rest⟩
      · apply absurd _ fresh
        exact ⟨version, rest ▸ List.mem_append_cons_self⟩
      · cases ms with
        | nil =>
          apply absurd _ fresh
          have rest : Entry.state (.waitingReboot version) :: older = before := rest
          exact ⟨version, rest ▸ List.mem_cons_self⟩
        | cons entry mid =>
          obtain ⟨rfl, -⟩ := List.cons.inj rest
          exact ⟨mid, turn⟩
    obtain ⟨mid, turn⟩ := here
    rcases ends.turn_after_install turn with rfl | rfl
    · simp
    · simp [OtaState.Repeats]

/-- A call alone leaves an update pending that it has installed. -/
theorem CheckLog.pendingKept (ends : CheckLog orch result log) : PendingKept (log ++ []) := by
  intro newer version older split
  rw [List.append_nil] at split
  rcases (ends.after_install split).2 with rfl | rfl
  · simp
  · simp [OtaState.Repeats]

end Logs

/-! ### Runs of the loop -/

/-- The operation is no sleep of the polling loop. -/
def Op.Other : Op Value → Prop
  | .interval _ => False
  | _ => True

section Other

theorem issues_call {o : Op Value} (other : o.Other) : Issues Op.Other (call o) :=
  ⟨other, fun _ => trivial⟩

variable {orch : Orchestrator} {dl : Downloader} {sha256 : Bytes → Bytes} {path : String}

namespace Downloader

theorem issues_checkUpdate {device channel version : String} :
    Issues (@Op.Other Value) (dl.checkUpdate device channel version).run := by
  refine .run_bind (.attempt (issues_call trivial)) fun resp => ?_
  split
  · exact trivial
  · exact .run_bind (.attempt (issues_call trivial)) fun info => trivial

theorem issues_sizeOnDisk : Issues (@Op.Other Value) (sizeOnDisk path).run := by
  refine .run_bind (.always (issues_call trivial)) fun found => ?_
  split
  · exact .attempt (issues_call trivial)
  · exact trivial

theorem issues_fetch {size : Nat} {resp : Response} :
    Issues (@Op.Other Value) (fetch path size resp).run := by
  refine .run_bind (.attempt (issues_call trivial)) fun chunk => ?_
  split
  · exact .run_bind (.attempt (issues_call trivial)) fun _ => trivial
  · exact .run_bind (.attempt (issues_call trivial)) fun _ => trivial

theorem issues_verifyHash {expected : Option String} :
    Issues (@Op.Other Value) (verifyHash sha256 path expected).run := by
  cases expected with
  | none => exact trivial
  | some hash =>
    refine .run_bind (.run_bind (.attempt (issues_call trivial)) fun _ => trivial) fun actual => ?_
    split
    · exact .run_bind (.always (issues_call trivial)) fun _ => trivial
    · exact trivial

theorem issues_download {url filename : String} {expected : Option String} {withProgress : Bool} :
    Issues (@Op.Other Value)
      (dl.download sha256 url filename expected withProgress).run := by
  refine .run_bind (.attempt (issues_call trivial)) fun _ => .run_bind issues_sizeOnDisk fun size => ?_
  refine .run_bind (.attempt (issues_call trivial)) fun resp => ?_
  split
  · refine .run_bind (.run_bind issues_fetch fun bytes => ?_) fun _ => trivial
    split
    · exact .run_bind (.always (issues_call trivial)) fun _ => issues_verifyHash
    · exact issues_verifyHash
  · exact trivial

end Downloader

namespace Orchestrator

theorem issues_notifyUi {event : String} {payload : Payload} :
    Issues (@Op.Other Value) (orch.notifyUi event payload) := by
  unfold notifyUi
  split
  · exact issues_call trivial
  · exact trivial

theorem issues_setState {new : OtaState} :
    Issues (@Op.Other Value) (orch.setState new) :=
  (issues_call (o := .state) trivial).bind fun _ =>
    (issues_call (o := .setState new) trivial).bind fun _ => issues_notifyUi

theorem issues_reboot : Issues (@Op.Other Value) orch.reboot :=
  issues_setState.bind fun _ => issues_notifyUi.bind fun _ =>
    (issues_call (o := .sleep 2000) trivial).bind fun _ => issues_call (o := .reboot) trivial

theorem issues_install : Issues (@Op.Other Value) (orch.install path).run := by
  refine .run_bind (.always (issues_call trivial)) fun state => ?_
  refine .run_bind (.always issues_setState) fun _ => ?_
  refine .run_bind (.attempt (issues_call trivial)) fun _ => ?_
  refine .run_bind (.always issues_setState) fun _ => ?_
  split
  · exact .always issues_reboot
  · exact .always issues_notifyUi

theorem issues_downloadBundle {info : UpdateInfo} :
    Issues (@Op.Other Value) (orch.downloadBundle sha256 info).run := by
  refine .run_bind (.always issues_setState) fun _ => .run_bind (.always issues_setState) fun _ => ?_
  cases info.downloadUrl with
  | none => exact trivial
  | some url => exact .attempt Downloader.issues_download

theorem issues_verifyAndInstall {version : String} :
    Issues (@Op.Other Value) (orch.verifyAndInstall version path).run := by
  refine .run_bind (.always issues_setState) fun _ => .run_bind (.always issues_setState) fun _ => ?_
  refine .run_bind (.attempt (issues_call trivial)) fun _ => ?_
  split
  · exact issues_install
  · exact .always issues_notifyUi

/-- A call of `check_and_update` does not sleep as the loop does. -/
theorem issues_checkAndUpdate :
    Issues (@Op.Other Value) (orch.checkAndUpdate sha256).run := by
  refine .run_bind (.always issues_setState) fun _ => ?_
  refine .run_bind (.attempt (.run_bind (.attempt (issues_call trivial)) fun _ => trivial)) fun _ => ?_
  refine .run_bind (.attempt Downloader.issues_checkUpdate) fun update => ?_
  cases update with
  | none => exact .always issues_setState
  | some info => exact .run_bind issues_downloadBundle fun path => issues_verifyAndInstall

end Orchestrator

end Other

section Run

variable {setup : Setup Key Value} {orch : Orchestrator} {sha256 : Bytes → Bytes} {w w' : World}
  {choices rest : List Choice}

/-- Whenever the loop sleeps before another turn, no update has been installed. -/
def NothingPending (orch : Orchestrator) (events : List (Event (Op Value) Ans World)) : Prop :=
  ∀ e ∈ events, e.op = .interval orch.config.pollIntervalSecs → ¬ Installed e.before.log

namespace Orchestrator

theorem nothingPending_of_issues {α : Type} {p : M Value α} (issues : Issues Op.Other p) :
    NothingPending orch (trace (act setup) p w choices) := by
  intro e mem isInterval
  have other := issues.trace e mem
  rw [isInterval] at other
  exact other.elim

theorem nothingPending_append {events events' : List (Event (Op Value) Ans World)} :
    NothingPending orch (events ++ events') ↔
      NothingPending orch events ∧ NothingPending orch events' :=
  List.forall_mem_append

theorem issues_turn : Issues (@Op.Other Value) (do
    match ← (orch.checkAndUpdate sha256).run with
    | .ok _ => pure ()
    | .error e => orch.setState (.error e.display)) := by
  refine issues_checkAndUpdate.bind fun result => ?_
  cases result with
  | ok _ => exact trivial
  | error e => exact issues_setState

/-- The one sleep of a turn comes at its start. -/
theorem nothingPending_poll {out : Unit × World × List Choice}
    (run : exec (act setup) (orch.poll sha256) w choices = some out) :
    NothingPending orch (trace (act setup) (orch.poll sha256) w choices) ↔ ¬ Installed w.log := by
  cases choices with
  | nil => cases run
  | cons choice choices =>
    change NothingPending orch (⟨w, .interval _, some ()⟩ :: trace (act setup) _ w choices) ↔ _
    refine List.forall_mem_cons.trans ⟨fun all => all.1 rfl, fun fresh => ⟨fun _ => fresh, ?_⟩⟩
    exact nothingPending_of_issues issues_turn

/-- What a turn logs. -/
theorem log_of_poll (run : exec (act setup) (orch.poll sha256) w choices = some ((), w', rest)) :
    ∃ result es, CheckLog orch result es ∧ w'.log = turnLog result es ++ w.log := by
  have pre : wp (act setup) (replying fun _ => True) (orch.poll sha256)
      (fun _ w' => ∃ result es, CheckLog orch result es ∧ w'.log = turnLog result es ++ w.log) w := by
    simp only [poll, wp_bind, wp_interval]
    refine wp_mono (wp_checkAndUpdate (R := fun _ => True)) fun result w' post => ?_
    cases result with
    | ok _ =>
      obtain ⟨es, ends, log⟩ := post
      exact ⟨.ok (), es, ends, log⟩
    | error e =>
      obtain ⟨es, ends, log⟩ := post
      change wp _ _ (orch.setState _) _ _
      rw [wp_setState]
      exact ⟨.error e, es, ends, congrArg _ log⟩
  exact wp_exec pre run fun e _ => relied_anyReply e

/-- A pending update is left alone by the turns of the loop iff it is left alone before them
and no turn starts when an update has been installed. -/
theorem pendingKept_polls {turns : Nat}
    (run : exec (act setup) (orch.polls sha256 turns) w choices = some ((), w', rest)) :
    PendingKept w'.log ↔ PendingKept w.log ∧
      NothingPending orch (trace (act setup) (orch.polls sha256 turns) w choices) := by
  induction turns generalizing w choices with
  | zero =>
    obtain ⟨⟨⟩, rfl, rfl⟩ : () = () ∧ w = w' ∧ choices = rest := by
      simpa [polls, exec, pure] using run
    exact (and_iff_left (List.forall_mem_nil _)).symm
  | succ turns ih =>
    rw [polls, exec_bind] at run
    obtain ⟨⟨_, middle, choices'⟩, first, run⟩ := Option.bind_eq_some_iff.mp run
    obtain ⟨result, es, ends, log⟩ := log_of_poll first
    rw [ih run, log, ends.pendingKept_iff, polls, trace_bind first, nothingPending_append,
      nothingPending_poll first, and_assoc]

end Orchestrator

/-! ### Pending updates -/

/-- In a run of `run_polling_loop` an installed update that waits for the reboot is left alone
iff the loop goes to no other turn once an update has been installed. -/
theorem pending_kept_iff {turns : Nat}
    (run : exec (act setup) (orch.runPollingLoop sha256 turns) w.begin choices =
      some ((), w', rest)) :
    PendingKept w'.log ↔ NothingPending orch
      (trace (act setup) (orch.runPollingLoop sha256 turns) w.begin choices) := by
  rw [Orchestrator.runPollingLoop, exec_bind] at run
  obtain ⟨⟨result, middle, choices'⟩, first, run⟩ := Option.bind_eq_some_iff.mp run
  obtain ⟨es, ends, log⟩ := Orchestrator.ended_of_exec first
  have start : PendingKept middle.log := log ▸ ends.pendingKept
  rw [Orchestrator.pendingKept_polls run, Orchestrator.runPollingLoop, trace_bind first,
    Orchestrator.nothingPending_append, and_iff_right start]
  exact (and_iff_right (Orchestrator.nothingPending_of_issues Orchestrator.issues_checkAndUpdate)).symm

end Run

/-- Version 2.0.0, as the server offers it. -/
def sampleOffer : UpdateInfo where
  version := "2.0.0"
  channel := "stable"
  timestamp := 0
  downloadUrl := some "https://ota/b"
  sha256 := "3e23e8160039594a33894f6564e1b1348bbd7a0088d42c4acb73eeaed59c009d"
  size := 1
  signature := ""

/-- A device with version 1.1.0 that is offered version 2.0.0. -/
def offered (status : Nat) : Choice where
  slots := [⟨some "1.1.0", true⟩]
  response := ⟨status, some 1⟩
  info := sampleOffer
  body := [0x62]

/-- What the first turn logs, when bundles are installed automatically. -/
def sampleTurn : List Entry :=
  pendingLog "/data/ota/update-2.0.0.raucb" sampleOffer [⟨some "1.1.0", true⟩]

/-- The device after the first turn. -/
def sampleInstalled : World where
  files := HashMap.insert ∅ "/data/ota/update-2.0.0.raucb" [0x62]
  state := .waitingReboot "unknown"
  log := sampleTurn

theorem first_turn :
    exec (act Downloader.sampleSetup)
      ((sampleOrch true).runPollingLoop Downloader.sampleSha256 0) emptyWorld.begin
      (List.replicate 27 (offered 200)) = some ((), sampleInstalled, []) := (rfl)

theorem pending_kept_iff_quiet : PendingKept sampleInstalled.log := by
  apply (pending_kept_iff first_turn).mpr
  apply Orchestrator.nothingPending_of_issues
  exact Orchestrator.issues_checkAndUpdate.bind fun _ => trivial

/-- The same version is offered again while the reboot is pending. The bundle on disk is complete,
so the server refuses the range, and the bundle is installed a second time. -/
theorem pending_installed_again :
    ∃ w', exec (act Downloader.sampleSetup)
        ((sampleOrch true).runPollingLoop Downloader.sampleSha256 1) emptyWorld.begin
        (List.replicate 40 (offered 200) ++ List.replicate 12 (offered 416)) = some ((), w', []) ∧
      w'.log = sampleTurn ++ sampleTurn ∧ ¬ PendingKept w'.log := by
  refine ⟨_, rfl, rfl, fun kept => ?_⟩
  obtain ⟨once, -⟩ := kept sampleTurn _ _ rfl
  exact once _ rfl (List.mem_cons_of_mem _ List.mem_cons_self)

end Otad
