import UosTv.Otad.Orchestrator

/-!
What one call of `check_and_update` logs.

`CheckLog` lists the ways in which a call can end, with all that it has logged; the newest
entry comes first. `wp_checkAndUpdate` says that there are no others. The version that
`install` tells is always `"unknown"`: it looks for the state `Downloaded`, and the state has
been `Verifying` since.
-/

namespace Otad

open Effect Rust UpdateVerify

variable {Key Value : Type}

/-! ### The parts of a log -/

section Logs

variable (path : String) (info : UpdateInfo) (slots : List SlotStatus)

def checkingLog : List Entry := [.status slots, .state .checking]

def downloadingLog : List Entry :=
  .state (.downloading info.version 0) ::
    .state (.updateAvailable info.version info.size info.critical) :: checkingLog slots

def verifyingLog : List Entry :=
  .state (.verifying info.version) :: .state (.downloaded info.version path) ::
    downloadingLog info slots

def acceptedLog : List Entry := .info path true :: verifyingLog path info slots

def installLog : List Entry :=
  .install path :: .state (.installing "unknown") :: acceptedLog path info slots

def pendingLog : List Entry :=
  .state (.waitingReboot "unknown") :: installLog path info slots

end Logs

/-- The file of an offered update. -/
def Orchestrator.bundlePath (orch : Orchestrator) (info : UpdateInfo) : String :=
  join orch.downloader.downloadDir (bundleName info.version)

/-- The ways in which `check_and_update` can end when the server offers an update. -/
inductive OfferLog (orch : Orchestrator) (info : UpdateInfo) (slots : List SlotStatus) :
    Except Failure Unit → List Entry → Prop where
  | downloadFails (e : Failure) : OfferLog orch info slots (.error e) (downloadingLog info slots)
  | rejected (e : RaucError) :
      OfferLog orch info slots (.error (.rauc e))
        (.info (orch.bundlePath info) false :: verifyingLog (orch.bundlePath info) info slots)
  | ready (manual : orch.config.autoInstall = false) :
      OfferLog orch info slots (.ok ()) (acceptedLog (orch.bundlePath info) info slots)
  | installFails (e : RaucError) (automatic : orch.config.autoInstall = true) :
      OfferLog orch info slots (.error (.rauc e)) (installLog (orch.bundlePath info) info slots)
  | pending (automatic : orch.config.autoInstall = true) (stays : orch.config.autoReboot = false) :
      OfferLog orch info slots (.ok ()) (pendingLog (orch.bundlePath info) info slots)
  | rebooting (automatic : orch.config.autoInstall = true)
      (reboots : orch.config.autoReboot = true) :
      OfferLog orch info slots (.ok ())
        (.reboot :: .state .rebooting :: pendingLog (orch.bundlePath info) info slots)

/-- The ways in which `check_and_update` can end. -/
inductive CheckLog (orch : Orchestrator) : Except Failure Unit → List Entry → Prop where
  | statusFails (e : RaucError) : CheckLog orch (.error (.rauc e)) [.state .checking]
  | checkFails (e : DownloadError) (slots : List SlotStatus) :
      CheckLog orch (.error (.download e)) (checkingLog slots)
  | noUpdate (slots : List SlotStatus) :
      CheckLog orch (.ok ()) (.state .noUpdate :: checkingLog slots)
  | downloadFails (e : Failure) (info : UpdateInfo) (slots : List SlotStatus) :
      CheckLog orch (.error e) (downloadingLog info slots)
  | rejected (e : RaucError) (info : UpdateInfo) (slots : List SlotStatus) :
      CheckLog orch (.error (.rauc e))
        (.info (orch.bundlePath info) false :: verifyingLog (orch.bundlePath info) info slots)
  | ready (info : UpdateInfo) (slots : List SlotStatus)
      (manual : orch.config.autoInstall = false) :
      CheckLog orch (.ok ()) (acceptedLog (orch.bundlePath info) info slots)
  | installFails (e : RaucError) (info : UpdateInfo) (slots : List SlotStatus)
      (automatic : orch.config.autoInstall = true) :
      CheckLog orch (.error (.rauc e)) (installLog (orch.bundlePath info) info slots)
  | pending (info : UpdateInfo) (slots : List SlotStatus)
      (automatic : orch.config.autoInstall = true) (stays : orch.config.autoReboot = false) :
      CheckLog orch (.ok ()) (pendingLog (orch.bundlePath info) info slots)
  | rebooting (info : UpdateInfo) (slots : List SlotStatus)
      (automatic : orch.config.autoInstall = true) (reboots : orch.config.autoReboot = true) :
      CheckLog orch (.ok ())
        (.reboot :: .state .rebooting :: pendingLog (orch.bundlePath info) info slots)

theorem OfferLog.checkLog {orch : Orchestrator} {info : UpdateInfo} {slots : List SlotStatus}
    {result : Except Failure Unit} {log : List Entry} (ends : OfferLog orch info slots result log) :
    CheckLog orch result log := by
  cases ends with
  | downloadFails e => exact .downloadFails e info slots
  | rejected e => exact .rejected e info slots
  | ready manual => exact .ready info slots manual
  | installFails e automatic => exact .installFails e info slots automatic
  | pending automatic stays => exact .pending info slots automatic stays
  | rebooting automatic reboots => exact .rebooting info slots automatic reboots

/-! ### Every call ends so -/

section Run

variable {setup : Setup Key Value} {R : Response → Prop} {w : World} {orch : Orchestrator}
  {sha256 : Bytes → Bytes} {info : UpdateInfo} {slots : List SlotStatus} {before : List Entry}

namespace Orchestrator

@[simp] theorem wp_notifyUi {event : String} {payload : Payload} {Q : Unit → World → Prop} :
    wp (act setup) (replying R) (orch.notifyUi event payload) Q w ↔ Q () w := by
  unfold notifyUi
  split
  · exact wp_publish
  · exact Iff.rfl

@[simp] theorem wp_setState {new : OtaState} {Q : Unit → World → Prop} :
    wp (act setup) (replying R) (orch.setState new) Q w ↔ Q () (w.enter new) := by
  simp only [setState, wp_bind, wp_state, wp_putState, wp_notifyUi]

@[simp] theorem wp_reboot {Q : Unit → World → Prop} :
    wp (act setup) (replying R) orch.reboot Q w ↔ Q () ((w.enter .rebooting).note .reboot) := by
  simp only [reboot, wp_bind, wp_setState, wp_notifyUi, wp_sleep, Otad.wp_reboot]

theorem wp_currentVersion {Q : Option String → World → Prop} {E : RaucError → World → Prop}
    (ok : ∀ slots, Q (activeVersion slots) (w.note (.status slots))) (error : ∀ e, E e w) :
    wpExcept (act setup) (replying R) currentVersion Q E w := by
  rw [currentVersion, wpExcept_bind, wpExcept_attempt]
  exact wp_raucStatus ok error

theorem wp_checkUpdate {dl : Downloader} {device channel version : String}
    {Q : Option UpdateInfo → World → Prop} {E : DownloadError → World → Prop}
    (ok : ∀ update, Q update w) (error : ∀ e, E e w) :
    wpExcept (act setup) (replying R) (dl.checkUpdate device channel version) Q E w := by
  simp only [Downloader.checkUpdate, wpExcept_bind, wpExcept_attempt]
  refine wp_send (fun response _ => ?_) fun e => error _
  change wpExcept _ _ (if _ then _ else _) _ _ _
  split
  · exact ok none
  · rw [wpExcept_bind, wpExcept_attempt]
    exact wp_json (fun info => ok (some info)) fun e => error _

/-- How a call ends on top of what was logged before it. -/
def Ended (orch : Orchestrator) (before : List Entry) (result : Except Failure Unit) (w : World) :
    Prop :=
  ∃ es, CheckLog orch result es ∧ w.log = es ++ before

/-- How a call ends that has been offered an update. -/
def EndedOffer (orch : Orchestrator) (info : UpdateInfo) (slots : List SlotStatus)
    (before : List Entry) (result : Except Failure Unit) (w : World) : Prop :=
  ∃ es, OfferLog orch info slots result es ∧ w.log = es ++ before

theorem EndedOffer.ended {result : Except Failure Unit}
    (ends : orch.EndedOffer info slots before result w) : orch.Ended before result w := by
  obtain ⟨es, ends, log⟩ := ends
  exact ⟨es, ends.checkLog, log⟩

theorem wp_install
    (automatic : orch.config.autoInstall = true) (verifying : w.state = .verifying info.version)
    (log : w.log = acceptedLog (orch.bundlePath info) info slots ++ before) :
    wpExcept (act setup) (replying R) (orch.install (orch.bundlePath info))
      (fun _ => orch.EndedOffer info slots before (.ok ()))
      (fun e => orch.EndedOffer info slots before (.error e)) w := by
  simp only [install, wpExcept_bind, wpExcept_always, wpExcept_attempt, wp_state, wp_setState,
    verifying, versionIn]
  refine wp_raucInstall fun r => ?_
  have installed : ((w.enter (.installing "unknown")).note (.install (orch.bundlePath info))).log =
      installLog (orch.bundlePath info) info slots ++ before := by
    simp [log, installLog]
  cases r with
  | error e => exact ⟨_, .installFails e automatic, installed⟩
  | ok _ =>
    change wpExcept _ _ (if _ then _ else _) _ _ _
    split
    · rename_i reboots
      rw [wpExcept_always, wp_reboot]
      refine ⟨_, .rebooting automatic reboots, ?_⟩
      simp [log, pendingLog, installLog]
    · rename_i stays
      rw [wpExcept_always, wp_notifyUi]
      refine ⟨_, .pending automatic (Bool.eq_false_iff.mpr stays), ?_⟩
      simp [log, pendingLog, installLog]

theorem wp_verifyAndInstall (log : w.log = downloadingLog info slots ++ before) :
    wpExcept (act setup) (replying R)
      (orch.verifyAndInstall info.version (orch.bundlePath info))
      (fun _ => orch.EndedOffer info slots before (.ok ()))
      (fun e => orch.EndedOffer info slots before (.error e)) w := by
  simp only [verifyAndInstall, wpExcept_bind, wpExcept_always, wpExcept_attempt, wp_setState]
  refine wp_raucInfo ?_ fun e => ⟨_, .rejected e, ?_⟩
  · change wpExcept _ _ (if _ then _ else _) _ _ _
    split
    · rename_i automatic
      apply wp_install automatic rfl
      simp [log, acceptedLog, verifyingLog]
    · rename_i manual
      rw [wpExcept_always, wp_notifyUi]
      refine ⟨_, .ready (Bool.eq_false_iff.mpr manual), ?_⟩
      simp [log, acceptedLog, verifyingLog]
  · simp [log, verifyingLog]

theorem wp_downloadBundle {Q : String → World → Prop}
    (log : w.log = checkingLog slots ++ before)
    (ok : ∀ w', w'.log = downloadingLog info slots ++ before → Q (orch.bundlePath info) w') :
    wpExcept (act setup) (replying R) (orch.downloadBundle sha256 info) Q
      (fun e => orch.EndedOffer info slots before (.error e)) w := by
  simp only [downloadBundle, wpExcept_bind, wpExcept_always, wp_setState]
  have started : ((w.enter (.updateAvailable info.version info.size info.critical)).enter
      (.downloading info.version 0)).log = downloadingLog info slots ++ before := by
    simp [log, downloadingLog]
  cases info.downloadUrl with
  | none => exact ⟨_, .downloadFails _, started⟩
  | some url =>
    rw [wpExcept_attempt]
    refine Downloader.wp_download (fun _ _ _ _ _ _ => ok _ started) (fun w' same _ => ?_)
      fun e w' same => ⟨_, .downloadFails _, same.log.trans started⟩
    exact ok w' (same.log.trans started)

/-- What is left of a call when it has been offered an update. -/
theorem wp_offered (log : w.log = checkingLog slots ++ before) :
    wpExcept (act setup) (replying R) (do
        let bundlePath ← orch.downloadBundle sha256 info
        orch.verifyAndInstall info.version bundlePath)
      (fun _ => orch.EndedOffer info slots before (.ok ()))
      (fun e => orch.EndedOffer info slots before (.error e)) w := by
  rw [wpExcept_bind]
  apply wp_downloadBundle log
  exact fun w' log => wp_verifyAndInstall log

theorem wp_checkAndUpdate :
    wpExcept (act setup) (replying R) (orch.checkAndUpdate sha256)
      (fun _ => orch.Ended w.log (.ok ())) (fun e => orch.Ended w.log (.error e)) w := by
  simp only [checkAndUpdate, wpExcept_bind, wpExcept_always, wpExcept_attempt, wp_setState]
  refine wp_currentVersion (fun slots => ?_) fun e => ⟨_, .statusFails e, rfl⟩
  refine wp_checkUpdate (fun update => ?_) fun e => ⟨_, .checkFails e slots, rfl⟩
  cases update with
  | none =>
    change wpExcept _ _ (always (orch.setState .noUpdate)) _ _ _
    rw [wpExcept_always, wp_setState]
    exact ⟨_, .noUpdate slots, rfl⟩
  | some info =>
    change wpExcept _ _ (orch.downloadBundle sha256 info >>= _) _ _ _
    apply wp_mono (wp_offered (rfl : _ = checkingLog slots ++ w.log))
    rintro (e | _) w' ends
    · exact ends.ended
    · exact ends.ended

theorem relied_anyReply : (e : Event (Op Value) Ans World) → e.Relied (replying fun _ => True)
  | ⟨_, o, _⟩ => by
    intro answer _
    cases o with
    | send request => exact fun _ _ => trivial
    | _ => trivial

/-- What a call of `check_and_update` logs in a run. -/
theorem ended_of_exec {result : Except Failure Unit} {w' : World} {choices rest : List Choice}
    (run : exec (act setup) (orch.checkAndUpdate sha256).run w choices =
      some (result, w', rest)) : orch.Ended w.log result w' := by
  have post := wp_exec (wp_checkAndUpdate (R := fun _ => True)) run fun e _ => relied_anyReply e
  cases result with
  | ok _ => exact post
  | error e => exact post

end Orchestrator

end Run

end Otad
