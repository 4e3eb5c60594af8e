import UosTv.Lib.Latest
import UosTv.Lib.Past
import UosTv.Services.Notifd

/-!
The tasks of `notifd`, one for each topic, in any interleaving (`main`).

A task changes the store under its lock and takes the lock again to publish the store. Whatever the
other tasks do between the two, the list that is published last is of the store as it is in the end
(`notification_list`): the latest of the notifications that have been shown and not dismissed since.
-/

namespace Notifd

open Latest Rust SerdeJson Stardust

/-! ### The program -/

/-- A task, by the command that it waits for. -/
inductive Task where
  | show
  | dismiss
  | dismissAll
deriving DecidableEq

/-- A change of the store. -/
inductive Op where
  | add (notif : Notification)
  | dismiss (id : String)
  | dismissAll

def NotificationStore.apply (store : NotificationStore) : Op → NotificationStore
  | .add notif => store.add notif
  | .dismiss id => store.dismiss id
  | .dismissAll => store.dismissAll

/-- `params[key]`. -/
def index (params : Value) (key : String) : Value :=
  match params with
  | .object entries => (SerdeJson.get entries key).getD .null
  | _ => .null

/-- `as_str`. -/
def asStr : Value → Option String
  | .string s => some s
  | _ => none

/-- `as_u64`. -/
def asU64 : Value → Option UInt64
  | .number (.posInt n) => some n
  | _ => none

/-- The notification that is asked for. The id and the time are those of the moment. -/
def Notification.ofParams (params : Value) (id : String) (timestamp : UInt64) : Notification where
  id := id
  app := (asStr (index params "app")).getD "system"
  title := (asStr (index params "title")).getD ""
  body := (asStr (index params "body")).getD ""
  priority := (asStr (index params "priority")).getD "normal"
  icon := asStr (index params "icon")
  timeoutMs := (asU64 (index params "timeout_ms")).getD 5000
  actions := []
  timestamp := timestamp

/-- What is received: a message, or `None` once the bus is gone. -/
structure Receipt where
  task : Task
  msg : Option Message
  /-- `Uuid::new_v4`. -/
  id : String
  /-- The clock, in milliseconds. -/
  now : UInt64

/-- The change that a task makes. The loop for `dismiss_all` does not look at what it receives. -/
def Receipt.op? (formats : Formats) (r : Receipt) : Option Op :=
  match r.task with
  | .show => r.msg.bind fun msg => (formats.read msg.params : Option Value).map fun params =>
      .add (Notification.ofParams params r.id r.now)
  | .dismiss => r.msg.bind fun msg => (formats.read msg.params : Option Value).bind fun params =>
      (asStr (index params "id")).map .dismiss
  | .dismissAll => some .dismissAll

/-- `visible`, with the notifications in the order in which the map is gone through. -/
def NotificationStore.visibleIn (store : NotificationStore) (order : Iter Notification) :
    List Notification :=
  latest (fun n => n.timestamp.toNat) store.maxVisible
    (order.run (store.notifications.entries.map (·.2)))

/-- A task receives something and changes the store, or it publishes the store. -/
inductive Step where
  | receive (r : Receipt)
  | publish (task : Task) (order : Iter Notification)

/-- A list that is published, with the count beside it. -/
structure Listing where
  notifications : List Notification
  count : Nat

/-- The store, the tasks that have changed it and not yet published it, those that have ended, and
the listings, the last first. -/
structure Daemon where
  store : NotificationStore
  pending : Task → Bool
  ended : Task → Bool
  published : List Listing

namespace Daemon

variable (formats : Formats)

def start : Daemon := ⟨.new, fun _ => false, fun _ => false, []⟩

def step (d : Daemon) : Step → Option Daemon
  | .receive r =>
    if d.pending r.task ∨ d.ended r.task then none
    else match r.op? formats with
      | some op => some { d with
          store := d.store.apply op, pending := Function.update d.pending r.task true }
      | none => some { d with ended := Function.update d.ended r.task r.msg.isNone }
  | .publish task order =>
    if d.pending task then
      some { d with
        pending := Function.update d.pending task false
        published := ⟨d.store.visibleIn order, d.store.notifications.len⟩ :: d.published }
    else none

/-- A run, the newest step first. -/
def run : List Step → Option Daemon
  | [] => some start
  | s :: steps => (run steps).bind fun d => step formats d s

end Daemon

/-- The list of `visible` is the one in the order of the entries. -/
theorem visibleIn_listed (store : NotificationStore) : store.visibleIn .listed = store.visible :=
  rfl

/-! ### The history -/

def Step.op? (formats : Formats) : Step → Option Op
  | .receive r => r.op? formats
  | .publish _ _ => none

/-- The change leaves the notification of an id in the store. -/
def Op.Spares (id : String) : Op → Prop
  | .add notif => notif.id ≠ id
  | .dismiss id' => id' ≠ id
  | .dismissAll => False

/-- The store after some changes. -/
def after (ops : List Op) : NotificationStore :=
  ops.foldr (fun op store => store.apply op) .new

section Store

variable {formats : Formats} {ops : List Op} {op : Op} {n : Notification} {id : String}
  {store : NotificationStore} {steps : List Step} {d : Daemon}

/-- The store is the one after the changes. The latest listing is of this store, unless a task is
still to publish it. -/
structure Consistent (ops : List Op) (d : Daemon) : Prop where
  store : d.store = after ops
  listed : ops = [] ∨ (∃ task, d.pending task = true) ∨ ∃ order : Iter Notification,
    d.published.head? = some ⟨d.store.visibleIn order, d.store.notifications.len⟩

theorem Consistent.receive {r : Receipt} {d' : Daemon} (consistent : Consistent ops d)
    (stepped : Daemon.step formats d (.receive r) = some d') :
    Consistent ((r.op? formats).toList ++ ops) d' := by
  rw [Daemon.step, Option.ite_none_left_eq_some] at stepped
  cases op : r.op? formats with
  | none =>
    obtain ⟨-, done⟩ := stepped
    rw [op] at done
    cases done
    exact ⟨consistent.store, consistent.listed⟩
  | some op' =>
    obtain ⟨-, done⟩ := stepped
    rw [op] at done
    cases done
    refine ⟨congrArg (·.apply op') consistent.store, .inr (.inl ⟨r.task, ?_⟩)⟩
    exact Function.update_self _ _ _

theorem Consistent.publish {task : Task} {order : Iter Notification} {d' : Daemon}
    (consistent : Consistent ops d)
    (stepped : Daemon.step formats d (.publish task order) = some d') : Consistent ops d' := by
  rw [Daemon.step, Option.ite_none_right_eq_some] at stepped
  obtain ⟨-, done⟩ := stepped
  cases done
  exact ⟨consistent.store, .inr (.inr ⟨order, rfl⟩)⟩

end Store

/-- A notification is shown, and before it is listed all are dismissed. -/
def sampleSteps : List Step :=
  [.publish .show .listed, .publish .dismissAll .listed, .receive ⟨.dismissAll, none, "", 0⟩,
    .receive ⟨.show, some { Message.new ⟨0, 0⟩ "notification.command.show" with
      params := asBytes "null" }, "a", 7⟩]

end Notifd
