import UosTv.Rust.Collections
import UosTv.Stardust.Params

/-!
Notifications (`notifd`), and the power state (`powermand`).
-/

namespace Notifd

open Rust SerdeJson Stardust

structure NotificationAction where
  id : String
  label : String

structure Notification where
  id : String
  app : String
  title : String
  body : String
  priority : String
  icon : Option String
  timeoutMs : UInt64
  actions : List NotificationAction
  timestamp : UInt64

structure NotificationStore where
  notifications : HashMap String Notification
  maxVisible : Nat

/-- `Serialize` of an action. -/
def NotificationAction.toJson (action : NotificationAction) : Value := record [
  ("id", .string action.id),
  ("label", .string action.label)]

theorem NotificationAction.canonical_toJson (action : NotificationAction) :
    Canonical action.toJson := by
  refine canonical_record ?_ (by simp)
  simp only [List.forall_mem_cons]
  exact ⟨.string _, .string _, List.forall_mem_nil _⟩

/-- `Serialize` of a notification. -/
def Notification.toJson (notif : Notification) : Value := record [
  ("id", .string notif.id),
  ("app", .string notif.app),
  ("title", .string notif.title),
  ("body", .string notif.body),
  ("priority", .string notif.priority),
  ("icon", Serde.toValue notif.icon),
  ("timeout_ms", Serde.toValue notif.timeoutMs),
  ("actions", .array (notif.actions.map (·.toJson))),
  ("timestamp", Serde.toValue notif.timestamp)]

theorem Notification.canonical_toJson (notif : Notification) : Canonical notif.toJson := by
  refine canonical_record ?_ (by simp)
  simp only [List.forall_mem_cons]
  exact ⟨.string _, .string _, .string _, .string _, .string _, canonical_optionString _, .posInt _,
    .array (List.forall_mem_map.mpr fun action _ => action.canonical_toJson), .posInt _,
    List.forall_mem_nil _⟩

namespace NotificationStore

variable (store : NotificationStore)

def new : NotificationStore := ⟨∅, 3⟩

def add (notif : Notification) : NotificationStore :=
  { store with notifications := store.notifications.insert notif.id notif }

def dismiss (id : String) : NotificationStore :=
  { store with notifications := store.notifications.remove id }

def dismissAll : NotificationStore := { store with notifications := ∅ }

/-- `visible`: the newest ones first. -/
def visible : List Notification :=
  let all := store.notifications.entries.map (·.2)
  let sorted := all.mergeSort fun a b => a.timestamp ≤ b.timestamp
  sorted.reverse.take store.maxVisible

/-- What `publish_notifications` attaches. -/
def payload : Value := record [
  ("notifications", .array (store.visible.map (·.toJson))),
  ("count", .number (.posInt (.ofNat store.notifications.len)))]

theorem canonical_payload : Canonical store.payload := by
  refine canonical_record ?_ (by simp)
  simp only [List.forall_mem_cons]
  exact ⟨.array (List.forall_mem_map.mpr fun notif _ => notif.canonical_toJson), .posInt _,
    List.forall_mem_nil _⟩

/-- `publish_notifications`. -/
def publishNotifications (formats : Formats) (stamp : Stamp) : Option Message :=
  statusMessage formats stamp "notification.list" "notifd" store.payload

/-- Nothing is visible when nothing is stored. -/
theorem visible_eq_nil_iff :
    store.visible = [] ↔ store.notifications.entries = [] ∨ store.maxVisible = 0 := by
  rw [visible, List.take_eq_nil_iff, List.reverse_eq_nil_iff, ← List.length_eq_zero_iff,
    List.length_mergeSort, List.length_map, List.length_eq_zero_iff]
  exact or_comm

end NotificationStore

end Notifd

namespace Powermand

open SerdeJson Stardust

inductive PowerState where
  | active
  | dimmed
  | suspended
deriving DecidableEq, Repr

namespace PowerState

variable (state : PowerState)

/-- The state that `main` enters after `idle` seconds without input. -/
def afterIdle (idleTimeoutSecs idle : Nat) : PowerState :=
  if idle > idleTimeoutSecs * 2 then .suspended
  else if idle > idleTimeoutSecs then .dimmed
  else .active

def text : PowerState → String
  | .active => "active"
  | .dimmed => "dimmed"
  | .suspended => "suspended"

/-- What `publish_state` attaches. -/
def payload (idleSeconds : UInt64) : Value := record [
  ("state", .string state.text),
  ("idle_seconds", Serde.toValue idleSeconds)]

theorem canonical_payload (idleSeconds : UInt64) : Canonical (state.payload idleSeconds) := by
  refine canonical_record ?_ (by simp)
  simp only [List.forall_mem_cons]
  exact ⟨.string _, .posInt _, List.forall_mem_nil _⟩

/-- `publish_state`. -/
def publishState (formats : Formats) (stamp : Stamp) (idleSeconds : UInt64) : Option Message :=
  statusMessage formats stamp "power.status" "powermand" (state.payload idleSeconds)

end PowerState

end Powermand
