import UosTv.UpdateVerify.Acceptance
import UosTv.Otad.Checks

/-!
What has been verified when a bundle is installed.

A call of `check_and_update` never has the verifier accept metadata, and it installs a bundle
iff `rauc info` has accepted it and bundles are installed automatically. So every install of
a call has been verified iff there is none, which is when bundles are not installed
automatically or the call does not get past `rauc info` (`installs_verified_iff`).
-/

namespace Otad

open Effect Rust UpdateVerify

variable {Key Value : Type}

/-- The version that is compared with that of an update. -/
def installedVersion (slots : List SlotStatus) : String := (activeVersion slots).getD "0.0.0"

/-- Before a bundle is installed the verifier has accepted its metadata, against the version
that RAUC has reported. -/
def InstallsVerified (orch : Orchestrator) (log : List Entry) : Prop :=
  ∀ newer path older, log = newer ++ .install path :: older →
    ∃ slots m, .status slots ∈ older ∧ .verified (some (installedVersion slots)) m ∈ older ∧
      path = join orch.downloader.downloadDir (Orchestrator.bundleName m.version)

section Logs

variable {orch : Orchestrator} {result : Except Failure Unit} {log : List Entry}

/-- Where nothing has been verified, the installs have been only if there are none. -/
theorem installsVerified_iff (unverified : ∀ version m, .verified version m ∉ log) :
    InstallsVerified orch log ↔ ¬ ∃ path, .install path ∈ log := by
  constructor
  · rintro checked ⟨path, mem⟩
    obtain ⟨newer, older, split⟩ := List.append_of_mem mem
    obtain ⟨slots, m, -, verified, -⟩ := checked newer path older split
    apply unverified (some (installedVersion slots)) m
    rw [split]
    exact List.mem_append_right _ (List.mem_cons_of_mem _ verified)
  · intro none newer path older split
    apply absurd _ none
    exact ⟨path, split ▸ List.mem_append_cons_self⟩

/-- A call verifies nothing. -/
theorem CheckLog.unverified (ends : CheckLog orch result log) (version : Option String)
    (m : BundleMetadata) : .verified version m ∉ log := by
  cases ends <;>
    simp [pendingLog, installLog, acceptedLog, verifyingLog, downloadingLog, checkingLog]

/-- A call installs a bundle iff `rauc info` has accepted it and bundles are installed
automatically. -/
theorem CheckLog.installs_iff (ends : CheckLog orch result log) :
    (∃ path, .install path ∈ log) ↔
      orch.config.autoInstall = true ∧ ∃ path, .info path true ∈ log := by
  cases ends <;>
    simp [*, pendingLog, installLog, acceptedLog, verifyingLog, downloadingLog, checkingLog]

end Logs

/-! ### Installs -/

/-- In a run of `check_and_update` every bundle that is installed has been verified iff bundles
are not installed automatically, or the run does not get to a bundle that `rauc info` accepts. -/
theorem installs_verified_iff {setup : Setup Key Value} {orch : Orchestrator}
    {sha256 : Bytes → Bytes} {w w' : World} {choices rest : List Choice}
    {result : Except Failure Unit}
    (run : exec (act setup) (orch.checkAndUpdate sha256).run w.begin choices =
      some (result, w', rest)) :
    InstallsVerified orch w'.log ↔
      orch.config.autoInstall = false ∨ ∀ path, .info path true ∉ w'.log := by
  obtain ⟨es, ends, log⟩ := Orchestrator.ended_of_exec run
  obtain rfl : w'.log = es := log.trans (List.append_nil es)
  rw [installsVerified_iff ends.unverified, ends.installs_iff, not_and_or, Bool.not_eq_true,
    not_exists]

/-- A device with version 1.1.0, and a server that offers version 0.9.0 without a signature. -/
def sampleChoices : List Choice :=
  let offer : UpdateInfo :=
    { version := "0.9.0", channel := "stable", timestamp := 0, downloadUrl := some "https://ota/b"
      sha256 := "3e23e8160039594a33894f6564e1b1348bbd7a0088d42c4acb73eeaed59c009d", size := 1
      signature := "" }
  [{}, {}, { slots := [⟨some "1.1.0", true⟩] }, { response := ⟨200, none⟩ }, { info := offer },
    {}, {}, {}, {},
    {}, {}, { response := ⟨200, some 1⟩ }, { body := [0x62] }, {}, {}, {},
    {}, {}, {}, {}, {},
    {}, {}, {}, {}, {}, {}]

def sampleOrch (autoInstall : Bool) : Orchestrator where
  config := { autoInstall }
  downloader := ⟨"https://ota", "/data/ota"⟩

def emptyWorld : World := ⟨∅, .idle, []⟩

/-- The log of that run up to the acceptance by `rauc info`. -/
def sampleLog : List Entry :=
  [.info "/data/ota/update-0.9.0.raucb" true, .state (.verifying "0.9.0"),
    .state (.downloaded "0.9.0" "/data/ota/update-0.9.0.raucb"), .state (.downloading "0.9.0" 0),
    .state (.updateAvailable "0.9.0" 1 false), .status [⟨some "1.1.0", true⟩], .state .checking]

def sampleEnd (autoInstall : Bool) : World where
  files := HashMap.insert ∅ "/data/ota/update-0.9.0.raucb" [0x62]
  state := if autoInstall then .waitingReboot "unknown" else .verifying "0.9.0"
  log := if autoInstall then
      .state (.waitingReboot "unknown") :: .install "/data/ota/update-0.9.0.raucb" ::
        .state (.installing "unknown") :: sampleLog
    else sampleLog

theorem sample_run (autoInstall : Bool) : ∃ rest,
    exec (act Downloader.sampleSetup)
      ((sampleOrch autoInstall).checkAndUpdate Downloader.sampleSha256).run emptyWorld.begin
      sampleChoices = some (.ok (), sampleEnd autoInstall, rest) := by
  cases autoInstall
  · exact ⟨_, rfl⟩
  · exact ⟨_, rfl⟩

theorem installs_verified_manual : InstallsVerified (sampleOrch false) (sampleEnd false).log := by
  obtain ⟨rest, run⟩ := sample_run false
  exact (installs_verified_iff run).mpr (.inl rfl)

/-- Version 0.9.0 is installed over version 1.1.0. Nothing has been verified, and no verifier
accepts metadata of that version. -/
theorem installs_unverified_downgrade :
    (∃ rest, exec (act Downloader.sampleSetup)
      ((sampleOrch true).checkAndUpdate Downloader.sampleSha256).run emptyWorld.begin
      sampleChoices = some (.ok (), sampleEnd true, rest)) ∧
    .install "/data/ota/update-0.9.0.raucb" ∈ (sampleEnd true).log ∧
    ¬ InstallsVerified (sampleOrch true) (sampleEnd true).log ∧
    ∀ (v : BundleVerifier Unit) (prims : Primitives Unit Unit) (checks : Bool) (now : UInt64)
      (signed : SignedBundle Unit) (m : BundleMetadata),
      v.verifyBundle prims checks now signed (some "1.1.0") = some (.ok m) → m.version ≠ "0.9.0" := by
  refine ⟨sample_run true, by decide, ?_, ?_⟩
  · intro checked
    obtain ⟨slots, m, -, verified, -⟩ := checked [_] _ _ rfl
    simp [sampleLog] at verified
  · intro v prims checks now signed m accepted older
    have newer := BundleVerifier.not_isDowngrade_of_verifyBundle accepted
    rw [older] at newer
    revert newer
    decide

end Otad
