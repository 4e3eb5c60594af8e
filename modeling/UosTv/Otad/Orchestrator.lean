import UosTv.Otad.Downloader

/-!
The update flow (`orch.rs`), and what is checked before an install.

`check_and_update` asks RAUC for the installed version and the server for an update,
downloads it, lets `rauc info` look at the bundle, and installs it. The bundle verifier is a
field of the orchestrator that no function reads (`installs_verified_iff`). The polling loop
checks again and again, also when an update waits for the reboot (`pending_kept_iff`).
-/

namespace Otad

open Effect Rust UpdateVerify

variable {Key Value : Type}

/-- `OtaConfig`, as far as an update depends on it. -/
structure OtaConfig where
  pollIntervalSecs : Nat := 21600
  channel : String := "stable"
  device : String := "qemu-virt"
  autoInstall : Bool := false
  autoReboot : Bool := false
deriving DecidableEq, Repr

/-- What `check_and_update` ends with (`Box<dyn Error>`). -/
inductive Failure where
  | rauc (e : RaucError)
  | download (e : DownloadError)
  | message (text : String)
deriving DecidableEq, Repr

/-! The texts of the errors (`Display`). -/

def RaucError.display : RaucError → String
  | .io cause => "I/O error: " ++ cause
  | .commandFailed stderr => "RAUC command failed: " ++ stderr
  | .json cause => "JSON parse error: " ++ cause

def DownloadError.display : DownloadError → String
  | .http cause => "HTTP error: " ++ cause
  | .io cause => "I/O error: " ++ cause
  | .hashMismatch expected actual =>
    "SHA256 mismatch: expected " ++ expected ++ ", got " ++ actual

def Failure.display : Failure → String
  | .rauc e => e.display
  | .download e => e.display
  | .message text => text

/-- `Orchestrator`, less its state; `busClient` says whether it is connected to the bus. -/
structure Orchestrator where
  config : OtaConfig
  downloader : Downloader
  busClient : Bool := false
deriving DecidableEq, Repr

/-- The version of the slot that is active. -/
def activeVersion (slots : List SlotStatus) : Option String :=
  (slots.find? (·.active)).bind (·.version)

/-- `RaucClient::current_version`. -/
def currentVersion : ExceptT RaucError (M Value) (Option String) := do
  let slots ← attempt id raucStatus
  pure (activeVersion slots)

namespace Orchestrator

variable (orch : Orchestrator)

/-- `notify_ui`. -/
def notifyUi (event : String) (payload : Payload) : M Value Unit :=
  if orch.busClient then publish ("ota." ++ event) payload else pure ()

/-- `set_state`. -/
def setState (new : OtaState) : M Value Unit := do
  let old ← state
  putState new
  orch.notifyUi "ota.state_changed" (.stateChanged new old)

/-- `reboot`, which always returns `Ok`. -/
def reboot : M Value Unit := do
  orch.setState .rebooting
  orch.notifyUi "rebooting" (.message "System is rebooting to complete update...")
  sleep 2000
  Otad.reboot

/-- The version that `install` tells the UI. -/
def versionIn : OtaState → String
  | .downloaded version _ => version
  | _ => "unknown"

/-- `install`. -/
def install (bundlePath : String) : ExceptT Failure (M Value) Unit := do
  let version := versionIn (← always state)
  always (orch.setState (.installing version))
  attempt .rauc (raucInstall bundlePath)
  always (orch.setState (.waitingReboot version))
  if orch.config.autoReboot then
    always orch.reboot
  else
    always (orch.notifyUi "reboot_needed" (.message "System update installed. Please reboot."))

/-- The name of the file of a version. -/
def bundleName (version : String) : String := "update-" ++ version ++ ".raucb"

/-- The part of `check_and_update` that downloads the bundle. -/
def downloadBundle (sha256 : Bytes → Bytes) (info : UpdateInfo) :
    ExceptT Failure (M Value) String := do
  always (orch.setState (.updateAvailable info.version info.size info.critical))
  always (orch.setState (.downloading info.version 0))
  match info.downloadUrl with
  | none => throw (.message "No download URL")
  | some bundleUrl =>
    attempt .download
      (orch.downloader.download sha256 bundleUrl (bundleName info.version) (some info.sha256) true).run

/-- The part of `check_and_update` after the download. -/
def verifyAndInstall (version bundlePath : String) : ExceptT Failure (M Value) Unit := do
  always (orch.setState (.downloaded version bundlePath))
  always (orch.setState (.verifying version))
  attempt .rauc (raucInfo bundlePath)
  if orch.config.autoInstall then
    orch.install bundlePath
  else
    always (orch.notifyUi "update_ready" (.updateReady version bundlePath))

/-- `check_and_update`. -/
def checkAndUpdate (sha256 : Bytes → Bytes) : ExceptT Failure (M Value) Unit := do
  always (orch.setState .checking)
  let installed := (← attempt .rauc currentVersion.run).getD "0.0.0"
  let update ← attempt .download
    (orch.downloader.checkUpdate orch.config.device orch.config.channel installed).run
  match update with
  | none => always (orch.setState .noUpdate)
  | some info =>
    let bundlePath ← orch.downloadBundle sha256 info
    orch.verifyAndInstall info.version bundlePath

/-- One turn of the loop of `run_polling_loop`. -/
def poll (sha256 : Bytes → Bytes) : M Value Unit := do
  interval orch.config.pollIntervalSecs
  match ← (orch.checkAndUpdate sha256).run with
  | .ok _ => pure ()
  | .error e => orch.setState (.error e.display)

def polls (sha256 : Bytes → Bytes) : Nat → M Value Unit
  | 0 => pure ()
  | turns + 1 => do
    orch.poll sha256
    polls sha256 turns

/-- `run_polling_loop`, for so many turns. When the first check fails that is only printed. -/
def runPollingLoop (sha256 : Bytes → Bytes) (turns : Nat) : M Value Unit := do
  let _ ← (orch.checkAndUpdate sha256).run
  orch.polls sha256 turns

end Orchestrator

end Otad
