import UosTv.Lib.Past
import UosTv.Stardust.Broker

/-!
Broker histories and the tables they determine.

A history lists what has happened to the tables, newest first: connections that
`handle_connection` entered into `connections`, and commands that `run_broker`
processed. `Valid` says which histories the connection tasks and the WebSocket bridge
can produce: a Unix connection sends between its opening and its `Unregister` only, and
its id is used once.

Each table is `Since` of what sets an entry and what clears it (`services_iff`,
`subscribed_iff`, `connections_iff`). These three facts hold of every history; the
claims about particular kinds of history are read off them.
-/

namespace Stardust

open Past Rust

/-- One change of the tables. `.wsGone w` changes nothing: it marks that WebSocket
client `w` has disconnected and the last of its commands has been processed. When it
ends, `handle_ws_client` sends nothing to the broker. -/
inductive Event where
  | opened (c : ConnId)
  | unix (cmd : BrokerCmd)
  | ws (w : WsId) (cmd : BrokerCmd)
  | wsGone (w : WsId)
deriving DecidableEq, Repr

/-- Events, newest first. -/
abbrev History := List Event

namespace Event

/-- The command that was processed, if the event is one. -/
def cmd : Event → Option BrokerCmd
  | unix cmd => some cmd
  | ws _ cmd => some cmd
  | _ => none

/-- What the event does to the tables, and what it sends. -/
def step (s : BrokerState) : Event → BrokerState × List Output
  | opened c => ({ s with connections := s.connections.insert c (.conn c) }, [])
  | unix cmd => runBroker s cmd
  | ws _ cmd => runBroker s cmd
  | wsGone _ => (s, [])

/-- The event puts connection `c` under service name `n`. -/
def Registers (n : String) (c : ConnId) (e : Event) : Prop :=
  ∃ cmd, e.cmd = some cmd ∧ cmd.Registers n c

/-- The event puts connection `c` under topic `t`. -/
def Subscribes (s : BrokerState) (c : ConnId) (t : String) (e : Event) : Prop :=
  ∃ cmd, e.cmd = some cmd ∧ cmd.Subscribes s c t

/-- The event stores `tx` under connection `c`. -/
def Stores (s : BrokerState) (c : ConnId) (tx : Sender) (e : Event) : Prop :=
  e = opened c ∧ tx = .conn c ∨ ∃ cmd, e.cmd = some cmd ∧ cmd.Stores s c tx

end Event

/-- The tables after a history. -/
def tables : History → BrokerState
  | [] => .new
  | e :: h => (e.step (tables h)).1

/-- Connection `c` has been opened and its `Unregister` has not been processed. -/
def Live (h : History) (c : ConnId) : Prop := .opened c ∈ h ∧ .unix (.unregister c) ∉ h

instance (h : History) (c : ConnId) : Decidable (Live h c) := by
  unfold Live; infer_instance

/-- The Unix connection that a command comes from. -/
def BrokerCmd.sender : BrokerCmd → Option ConnId
  | .register c _ => some c
  | .unregister c => some c
  | .subscribe c _ => some c
  | .unsubscribe c _ => some c
  | .route envelope => some envelope.senderConn
  | _ => none

/-- Every frame becomes a command in its connection's name, and none ends the connection. -/
theorem sender_handleFrame {c : ConnId} {msg : Message} : (handleFrame c msg).sender = some c := by
  unfold handleFrame
  split_ifs
  all_goals rfl

theorem handleFrame_ne_unregister {c d : ConnId} {msg : Message} :
    handleFrame c msg ≠ .unregister d := by
  unfold handleFrame
  split_ifs
  all_goals simp

/-- The command comes from the bridge of WebSocket client `w`, as `handle_ws_message`
sends it; the channel of a subscription is new. -/
def BrokerCmd.FromWs (h : History) (w : WsId) : BrokerCmd → Prop
  | .registerService _ => True
  | .subscribeDirect _ tx => ∃ k, tx = .forward w k ∧ ∀ t, .ws w (.subscribeDirect t tx) ∉ h
  | .unsubscribeDirect _ tx => tx = .bridge w
  | .route envelope => envelope.senderConn = 0
  | .call _ _ => True
  | _ => False

/-- Every request becomes a command of the bridge when the channel it may create is new. -/
theorem fromWs_handleWsMessage {h : History} {w : WsId} {k : Nat}
    (fresh : ∀ t, .ws w (.subscribeDirect t (.forward w k)) ∉ h) (stamp : Stamp)
    (request : WsRequest) : (handleWsMessage w k stamp request).FromWs h w := by
  cases request with
  | subscribe topic => exact ⟨k, rfl, fresh⟩
  | unsubscribe topic => rfl
  | publish method params => rfl
  | call method params => trivial
  | register name => trivial

/-- What can happen next after `h`. -/
def Admissible (h : History) : Event → Prop
  | .opened c => .opened c ∉ h
  | .unix cmd => ∃ c, cmd.sender = some c ∧ Live h c
  | .ws w cmd => cmd.FromWs h w ∧ .wsGone w ∉ h
  | .wsGone w => .wsGone w ∉ h

/-- Histories in which every event could happen when it did. -/
def Valid : History → Prop
  | [] => True
  | e :: h => Admissible h e ∧ Valid h

theorem Valid.suffix {h g : History} (valid : Valid h) (suffix : g <:+ h) : Valid g := by
  induction h with
  | nil =>
    rw [List.suffix_nil.mp suffix]
    trivial
  | cons e h ih =>
    rcases List.suffix_cons_iff.mp suffix with rfl | suffix
    · exact valid
    · exact ih valid.2 suffix

theorem Valid.admissible {h g : History} {e : Event} (valid : Valid h) (suffix : e :: g <:+ h) :
    Admissible g e := (valid.suffix suffix).1

/-! ### The tables as `Since` -/

theorem services_iff {h : History} {n : String} {c : ConnId} :
    (tables h).services.get n = some c ↔
      Since (fun e _ => (∀ c', ¬ e.Registers n c') ∧ e.cmd ≠ some (.unregister c))
        (fun e _ => e.Registers n c) h := by
  refine since_of_step (P := fun h => (tables h).services.get n = some c)
    (by simp [tables, BrokerState.new]) fun e h => ?_
  cases e with
  | opened c' => simp [tables, Event.step, Event.Registers, Event.cmd]
  | unix cmd => simp [tables, Event.step, Event.Registers, Event.cmd, services_runBroker]
  | ws w cmd => simp [tables, Event.step, Event.Registers, Event.cmd, services_runBroker]
  | wsGone w => simp [tables, Event.step, Event.Registers, Event.cmd]

theorem subscribed_iff {h : History} {c : ConnId} {t : String} :
    (tables h).Subscribed c t ↔
      Since (fun e _ => e.cmd ≠ some (.unsubscribe c t) ∧ e.cmd ≠ some (.unregister c))
        (fun e g => e.Subscribes (tables g) c t) h := by
  refine since_of_step (P := fun h => (tables h).Subscribed c t)
    (by simp [tables, BrokerState.new, BrokerState.Subscribed]) fun e h => ?_
  cases e with
  | opened c' =>
    simp [tables, Event.step, Event.Subscribes, Event.cmd, BrokerState.Subscribed]
  | unix cmd => simp [tables, Event.step, Event.Subscribes, Event.cmd, subscribed_runBroker]
  | ws w cmd => simp [tables, Event.step, Event.Subscribes, Event.cmd, subscribed_runBroker]
  | wsGone w => simp [tables, Event.step, Event.Subscribes, Event.cmd]

theorem connections_iff {h : History} {c : ConnId} {tx : Sender} :
    (tables h).connections.get c = some tx ↔
      Since (fun e g => (∀ tx', ¬ e.Stores (tables g) c tx') ∧ e.cmd ≠ some (.unregister c))
        (fun e g => e.Stores (tables g) c tx) h := by
  refine since_of_step (P := fun h => (tables h).connections.get c = some tx)
    (by simp [tables, BrokerState.new]) fun e h => ?_
  cases e with
  | opened c' =>
    simp only [tables, Event.step, HashMap.get_insert, Event.Stores, Event.cmd]
    by_cases same : c = c'
    · subst same
      simp [eq_comm]
    · simp [same, Ne.symm same]
  | unix cmd => simp [tables, Event.step, Event.Stores, Event.cmd, connections_runBroker]
  | ws w cmd => simp [tables, Event.step, Event.Stores, Event.cmd, connections_runBroker]
  | wsGone w => simp [tables, Event.step, Event.Stores, Event.cmd]

/-! One more event, from the same facts. -/

section Cons

variable {h : History} {e : Event} {c : ConnId} {n t : String} {tx : Sender}

theorem services_cons :
    (tables (e :: h)).services.get n = some c ↔ e.Registers n c ∨
      ((∀ c', ¬ e.Registers n c') ∧ e.cmd ≠ some (.unregister c)) ∧
        (tables h).services.get n = some c := by
  rw [services_iff, since_cons, ← services_iff]

theorem subscribed_cons :
    (tables (e :: h)).Subscribed c t ↔ e.Subscribes (tables h) c t ∨
      (e.cmd ≠ some (.unsubscribe c t) ∧ e.cmd ≠ some (.unregister c)) ∧
        (tables h).Subscribed c t := by
  rw [subscribed_iff, since_cons, ← subscribed_iff]

theorem connections_cons :
    (tables (e :: h)).connections.get c = some tx ↔ e.Stores (tables h) c tx ∨
      ((∀ tx', ¬ e.Stores (tables h) c tx') ∧ e.cmd ≠ some (.unregister c)) ∧
        (tables h).connections.get c = some tx := by
  rw [connections_iff, since_cons, ← connections_iff]

end Cons

end Stardust
