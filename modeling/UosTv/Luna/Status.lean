import UosTv.Luna.App
import UosTv.Services.Audiod
import UosTv.Services.Netmd
import UosTv.Services.Notifd
import UosTv.Stardust.Broker

/-!
Status messages of the services as the shell reads them, and the volume command of the shell as
`audiod` reads it.

A service attaches its state under the key `payload`, and the handlers look for the fields of
the state themselves; `setVolume` publishes an object, and `audiod` wants a number. So nothing
of either gets across, and the two sides agree only where they did before (`status_agrees_iff`).
-/

namespace Luna

open Audiod Netmd Notifd Powermand SerdeJson Stardust

/-- Some message is published, and the parameters that the bridge reads from it are as said. -/
def Publishes (formats : Formats) (published : Option Message) (p : Value → Prop) : Prop :=
  ∃ msg, published = some msg ∧ p (formats.parseParamsToValue msg.params)

variable {formats : Formats} {stamp : Stamp} {app : App}

theorem publishes_status {method src : String} {payload : Value} {p : Value → Prop}
    (canonical : Canonical payload) :
    Publishes formats (statusMessage formats stamp method src payload) p ↔
      p (.object [("payload", payload)]) := by
  obtain ⟨msg, published, params⟩ := exists_statusMessage formats stamp method src canonical
  constructor
  · rintro ⟨msg', published', holds⟩
    obtain rfl := Option.some.inj (published.symm.trans published')
    exact params ▸ holds
  · intro holds
    exact ⟨msg, published, params.symm ▸ holds⟩

/-! ### What it means to agree -/

/-- After the status of `audiod` the shell has its volume and its muting. -/
def AudioAgrees (formats : Formats) (stamp : Stamp) (app : App) (vc : VolumeController) : Prop :=
  Publishes formats (vc.publishState formats stamp) fun params =>
    (app.onAudioStatus params).volume = some (Serde.toValue vc.volume) ∧
      (app.onAudioStatus params).muted = some (.bool vc.muted)

/-- After the status of `netmd` the shell knows whether there is a connection. -/
def NetworkAgrees (formats : Formats) (stamp : Stamp) (app : App) (net : NetworkState) : Prop :=
  Publishes formats (net.publishState formats stamp) fun params =>
    (app.onNetworkStatus params).wifiConnected = some (.bool net.connected)

/-- After the status of `powermand` the page is dimmed iff the device is. -/
def PowerAgrees (formats : Formats) (stamp : Stamp) (app : App) (state : PowerState)
    (idleSeconds : UInt64) : Prop :=
  Publishes formats (state.publishState formats stamp idleSeconds) fun params =>
    (app.onPowerStatus params).filter = if state = .dimmed then "brightness(0.7)" else ""

/-- The shell shows the notifications that `notifd` has published. -/
def NotificationsAgree (formats : Formats) (stamp : Stamp) (store : NotificationStore) : Prop :=
  Publishes formats (store.publishNotifications formats stamp) fun params =>
    (App.toasts params).map some = store.visible.map fun notif => App.toast notif.toJson

/-- When the shell has set the volume, and the bridge has passed the command on, the volume of
`audiod` is the one that was set. -/
def VolumeAgrees (formats : Formats) (stamp : Stamp) (app : App) (vc : VolumeController) (v : Nat) :
    Prop :=
  ∃ bytes, formats.toVec (app.setVolume v).2.2 = .ok bytes ∧
    (vc.handleCommand formats stamp
      (wsMessage stamp (app.setVolume v).2.1 bytes)).1.volume.toNat = v

theorem audioAgrees_iff {vc : VolumeController} : AudioAgrees formats stamp app vc ↔
    app.volume = some (Serde.toValue vc.volume) ∧ app.muted = some (.bool vc.muted) := by
  rw [AudioAgrees, VolumeController.publishState, publishes_status vc.canonical_payload,
    app.onAudioStatus_nested (by decide) (by decide)]

theorem not_networkAgrees {net : NetworkState} : ¬ NetworkAgrees formats stamp app net := by
  rw [NetworkAgrees, NetworkState.publishState, publishes_status net.canonical_payload,
    app.onNetworkStatus_nested (by decide)]
  rintro ⟨⟩

theorem powerAgrees_iff {state : PowerState} {idleSeconds : UInt64} :
    PowerAgrees formats stamp app state idleSeconds ↔ state ≠ .dimmed := by
  rw [PowerAgrees, PowerState.publishState, publishes_status (state.canonical_payload idleSeconds),
    app.onPowerStatus_nested (by decide)]
  split_ifs with dimmed
  · simp [dimmed]
  · simp [dimmed]

theorem notificationsAgree_iff {store : NotificationStore} :
    NotificationsAgree formats stamp store ↔
      store.notifications.entries = [] ∨ store.maxVisible = 0 := by
  rw [NotificationsAgree, NotificationStore.publishNotifications,
    publishes_status store.canonical_payload, App.toasts_nested (by decide) (by decide),
    List.map_nil, eq_comm, List.map_eq_nil_iff, store.visible_eq_nil_iff]

/-- `audiod` ignores the command of the shell. -/
theorem volumeAgrees_iff {vc : VolumeController} {v : Nat} :
    VolumeAgrees formats stamp app vc v ↔ vc.volume.toNat = v := by
  have canonical : Canonical (app.setVolume v).2.2 := by
    refine .object (List.pairwise_singleton _ _) ?_
    rw [List.forall_mem_singleton]
    exact .posInt _
  obtain ⟨bytes, written, read⟩ := formats.fromSlice_toVec _ canonical
  have ignored : (vc.handleCommand formats stamp
      (wsMessage stamp (app.setVolume v).2.1 bytes)).1 = vc := by
    have unread : (formats.read bytes : Option UInt32) = none := by
      rw [Formats.read, read]
      rfl
    rw [VolumeController.handleCommand_of_unread rfl unread]
  constructor
  · rintro ⟨bytes', written', same⟩
    obtain rfl := Except.ok.inj (written.symm.trans written')
    rwa [ignored] at same
  · intro same
    exact ⟨bytes, written, by rw [ignored, same]⟩

/-- For every state of the services and of the shell: the shell has the volume and the muting of
`audiod` after its status iff it had them before, it never knows whether there is a connection,
it follows `powermand` unless the device is dimmed, it shows the notifications when there are
none, and `audiod` has the volume that the shell sets iff it had it before. -/
theorem status_agrees_iff (formats : Formats) (stamp : Stamp) (app : App) (vc : VolumeController)
    (net : NetworkState) (state : PowerState) (idleSeconds : UInt64) (store : NotificationStore)
    (v : Nat) :
    (AudioAgrees formats stamp app vc ↔
      app.volume = some (Serde.toValue vc.volume) ∧ app.muted = some (.bool vc.muted)) ∧
    ¬ NetworkAgrees formats stamp app net ∧
    (PowerAgrees formats stamp app state idleSeconds ↔ state ≠ .dimmed) ∧
    (NotificationsAgree formats stamp store ↔
      store.notifications.entries = [] ∨ store.maxVisible = 0) ∧
    (VolumeAgrees formats stamp app vc v ↔ vc.volume.toNat = v) :=
  ⟨audioAgrees_iff, not_networkAgrees, powerAgrees_iff, notificationsAgree_iff, volumeAgrees_iff⟩

def sampleNotification : Notification where
  id := "1"
  app := "otad"
  title := "Update"
  body := "Version 2.0.0"
  priority := "high"
  icon := none
  timeoutMs := 5000
  actions := []
  timestamp := 0

/-- The shell starts with a volume of 70. It does not hear of another one, nor of the
connection, of the dimming or of a notification, and `audiod` does not hear of its own. -/
theorem status_unread :
    ¬ AudioAgrees textFormats ⟨0, 0⟩ App.new (VolumeController.new.setVolume 40) ∧
    ¬ NetworkAgrees textFormats ⟨0, 0⟩ App.new ⟨∅, false⟩ ∧
    ¬ PowerAgrees textFormats ⟨0, 0⟩ App.new .dimmed 301 ∧
    ¬ NotificationsAgree textFormats ⟨0, 0⟩ (NotificationStore.new.add sampleNotification) ∧
    ¬ VolumeAgrees textFormats ⟨0, 0⟩ App.new VolumeController.new 30 := by
  refine ⟨?_, not_networkAgrees, ?_, ?_, ?_⟩
  · rw [audioAgrees_iff]
    rintro ⟨same, -⟩
    cases same
  · rw [powerAgrees_iff]
    exact not_not.mpr rfl
  · rw [notificationsAgree_iff]
    rintro (empty | none)
    · cases empty
    · cases none
  · rw [volumeAgrees_iff]
    decide

end Luna
