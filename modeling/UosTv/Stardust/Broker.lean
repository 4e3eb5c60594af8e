import UosTv.Rust.Collections
import UosTv.Stardust.Message

/-!
The broker (`broker.rs`): its tables and the commands that change them.

`runBroker` is one turn of the command loop; it returns the new tables and what the
turn sends. Channels are known by name: `.conn c` is the channel that
`handle_connection` creates for Unix connection `c`, `.forward w k` the one that
WebSocket client `w` creates for its `k`-th subscription, and `.bridge w` the `sub_tx`
of `handle_ws_client`. `u64` counters are natural numbers.
-/

namespace Stardust

open Rust

abbrev ConnId := Nat

/-- A WebSocket client, in order of arrival. -/
abbrev WsId := Nat

/-- `mpsc::UnboundedSender<Message>`, by the channel it belongs to. -/
inductive Sender where
  | conn (c : ConnId)
  | forward (w : WsId) (k : Nat)
  | bridge (w : WsId)
deriving DecidableEq, Repr

structure Envelope where
  msg : Message
  senderConn : ConnId
deriving DecidableEq, Repr

/-- `BrokerCmd`. The reply channel of `Register` is left out: `handle_connection`
drops its receiver before the command is sent. That of `Call` is a number. -/
inductive BrokerCmd where
  | register (connId : ConnId) (serviceName : String)
  | registerService (name : String)
  | unregister (connId : ConnId)
  | subscribe (connId : ConnId) (topic : String)
  | subscribeDirect (topic : String) (tx : Sender)
  | unsubscribe (connId : ConnId) (topic : String)
  | unsubscribeDirect (topic : String) (tx : Sender)
  | route (envelope : Envelope)
  | call (msg : Message) (reply : Nat)
deriving DecidableEq, Repr

/-- What a turn of the loop sends on channels it knows. -/
inductive Output where
  | send (tx : Sender) (msg : Message)
  | reply (call : Nat) (result : Error)
deriving DecidableEq, Repr

/-- `BrokerState`. Nothing reads or writes `pending_calls`. -/
structure BrokerState where
  services : HashMap String ConnId
  subscriptions : HashMap String (HashSet ConnId)
  connections : HashMap ConnId Sender

namespace BrokerState

/-- The empty tables that `Broker::run` starts with. -/
def new : BrokerState := ⟨∅, ∅, ∅⟩

/-- `c` is in `subscriptions[t]`. -/
def Subscribed (s : BrokerState) (c : ConnId) (t : String) : Prop :=
  ∃ conns, s.subscriptions.get t = some conns ∧ c ∈ conns

/-- `state.connections.get(conn_id)` and `tx.send(msg.clone())`, unless the
connection is the sender. -/
def sendTo (s : BrokerState) (e : Envelope) (c : ConnId) : List Output :=
  if c = e.senderConn then []
  else match s.connections.get c with
    | none => []
    | some tx => [.send tx e.msg]

/-- Direct routing, when the message names a destination. -/
def directRoute (s : BrokerState) (e : Envelope) : List Output :=
  if e.msg.dst = "" then []
  else match s.services.get e.msg.dst with
    | none => []
    | some target => s.sendTo e target

/-- Topic routing: every pattern that matches, and every connection under it. -/
def topicRoute (s : BrokerState) (e : Envelope) : List Output :=
  s.subscriptions.entries.flatMap fun entry =>
    if e.msg.matchesTopic entry.1 then entry.2.elems.flatMap (s.sendTo e) else []

/-- `BrokerCmd::Route`. -/
def route (s : BrokerState) (e : Envelope) : List Output := s.directRoute e ++ s.topicRoute e

/-- The id under which a direct subscription stores its sender. -/
def syntheticId (s : BrokerState) : ConnId := s.connections.len + 100000

end BrokerState

/-- `u64::MAX`, the connection that `RegisterService` registers. -/
def u64Max : ConnId := 2 ^ 64 - 1

open BrokerState in
/-- One turn of the loop of `run_broker`. -/
def runBroker (s : BrokerState) : BrokerCmd → BrokerState × List Output
  | .register connId serviceName =>
    ({ s with services := s.services.insert serviceName connId }, [])
  | .registerService name => ({ s with services := s.services.insert name u64Max }, [])
  | .unregister connId =>
    ({ services := s.services.retain fun _ cid => cid ≠ connId
       subscriptions := s.subscriptions.mapValues fun subs => subs.remove connId
       connections := s.connections.remove connId }, [])
  | .subscribe connId topic =>
    ({ s with subscriptions :=
        s.subscriptions.upsert topic .new fun subs => subs.insert connId }, [])
  | .subscribeDirect topic tx =>
    ({ s with
       connections := s.connections.insert s.syntheticId tx
       subscriptions := s.subscriptions.upsert topic .new fun subs => subs.insert s.syntheticId },
      [])
  -- `UnsubscribeDirect` is accepted and does nothing.
  | .unsubscribeDirect _ _ => (s, [])
  | .unsubscribe connId topic =>
    ({ s with subscriptions := s.subscriptions.modify topic fun subs => subs.remove connId }, [])
  | .route envelope => (s, s.route envelope)
  -- A call is not forwarded to a service.
  | .call msg reply => (s, [.reply reply (.serviceNotFound msg.dst)])

/-! ### Where commands come from -/

/-- The command that `handle_connection` sends for a frame of connection `c`. -/
def handleFrame (c : ConnId) (msg : Message) : BrokerCmd :=
  if msg.method = "__stardust.register" then .register c (fromUtf8Lossy msg.params)
  else if msg.method = "__stardust.subscribe" then .subscribe c (fromUtf8Lossy msg.params)
  else if msg.method = "__stardust.unsubscribe" then .unsubscribe c (fromUtf8Lossy msg.params)
  else .route ⟨msg, c⟩

namespace BrokerHandle

/-- `BrokerHandle::subscribe`. -/
def subscribe (topic : String) (tx : Sender) : BrokerCmd := .subscribeDirect topic tx

/-- `BrokerHandle::unsubscribe`. -/
def unsubscribe (topic : String) (tx : Sender) : BrokerCmd := .unsubscribeDirect topic tx

/-- `BrokerHandle::publish`: messages of the WebSocket bridge carry connection 0. -/
def publish (msg : Message) : BrokerCmd := .route ⟨msg, 0⟩

/-- `BrokerHandle::call`. -/
def call (msg : Message) (reply : Nat) : BrokerCmd := .call msg reply

/-- `BrokerHandle::register_service`. -/
def registerService (name : String) : BrokerCmd := .registerService name

end BrokerHandle

/-- `WsRequest`, a parsed frame of a WebSocket client. `params` are the bytes that
`serde_json::to_vec` writes for the parameters. -/
inductive WsRequest where
  | subscribe (topic : String)
  | unsubscribe (topic : String)
  | publish (method : String) (params : List UInt8)
  | call (method : String) (params : List UInt8)
  | register (name : String)

/-- The message that `handle_ws_message` builds for a publication or a call. -/
def wsMessage (stamp : Stamp) (method : String) (params : List UInt8) : Message :=
  ((Message.new stamp method).withSrc "luna-ui").paramsRaw params

/-- The command that `handle_ws_message` sends for client `w`; `k` numbers the channel
it creates for a subscription or a call. -/
def handleWsMessage (w : WsId) (k : Nat) (stamp : Stamp) : WsRequest → BrokerCmd
  | .subscribe topic => BrokerHandle.subscribe topic (.forward w k)
  | .unsubscribe topic => BrokerHandle.unsubscribe topic (.bridge w)
  | .publish method params => BrokerHandle.publish (wsMessage stamp method params)
  | .call method params => BrokerHandle.call (wsMessage stamp method params) k
  | .register name => BrokerHandle.registerService name

/-! ### What one command does to each table -/

/-- The command puts connection `c` under service name `n`. -/
def BrokerCmd.Registers (n : String) (c : ConnId) : BrokerCmd → Prop
  | .register connId serviceName => serviceName = n ∧ connId = c
  | .registerService name => name = n ∧ u64Max = c
  | _ => False

/-- The command, processed in tables `s`, puts connection `c` under topic `t`. -/
def BrokerCmd.Subscribes (s : BrokerState) (c : ConnId) (t : String) : BrokerCmd → Prop
  | .subscribe connId topic => topic = t ∧ connId = c
  | .subscribeDirect topic _ => topic = t ∧ s.syntheticId = c
  | _ => False

/-- The command, processed in tables `s`, stores `tx` under connection `c`. -/
def BrokerCmd.Stores (s : BrokerState) (c : ConnId) (tx : Sender) : BrokerCmd → Prop
  | .subscribeDirect _ tx' => s.syntheticId = c ∧ tx' = tx
  | _ => False

variable {s : BrokerState} {cmd : BrokerCmd}

theorem services_runBroker (n : String) (c : ConnId) :
    (runBroker s cmd).1.services.get n = some c ↔
      cmd.Registers n c ∨
        ((∀ c', ¬ cmd.Registers n c') ∧ cmd ≠ .unregister c) ∧ s.services.get n = some c := by
  cases cmd with
  | register connId serviceName =>
    simp only [runBroker, HashMap.get_insert, BrokerCmd.Registers]
    by_cases same : n = serviceName
    · simp [same]
    · simp [same, Ne.symm same]
  | registerService name =>
    simp only [runBroker, HashMap.get_insert, BrokerCmd.Registers]
    by_cases same : n = name
    · simp [same]
    · simp [same, Ne.symm same]
  | unregister connId =>
    simp only [runBroker, HashMap.get_retain, BrokerCmd.Registers, Option.filter_eq_some_iff]
    grind
  | _ => simp [runBroker, BrokerCmd.Registers]

theorem subscribed_runBroker (c : ConnId) (t : String) :
    (runBroker s cmd).1.Subscribed c t ↔
      cmd.Subscribes s c t ∨
        (cmd ≠ .unsubscribe c t ∧ cmd ≠ .unregister c) ∧ s.Subscribed c t := by
  cases cmd with
  | unregister connId =>
    simp only [runBroker, BrokerState.Subscribed, HashMap.get_mapValues, BrokerCmd.Subscribes]
    cases s.subscriptions.get t with
    | none => simp
    | some conns => simp [eq_comm]
  | subscribe connId topic =>
    simp only [runBroker, BrokerState.Subscribed, HashMap.get_upsert, BrokerCmd.Subscribes]
    by_cases same : t = topic
    · subst same
      cases s.subscriptions.get t <;> simp [eq_comm]
    · simp [same, Ne.symm same]
  | subscribeDirect topic tx =>
    simp only [runBroker, BrokerState.Subscribed, HashMap.get_upsert, BrokerCmd.Subscribes]
    by_cases same : t = topic
    · subst same
      cases s.subscriptions.get t <;> simp [eq_comm]
    · simp [same, Ne.symm same]
  | unsubscribe connId topic =>
    simp only [runBroker, BrokerState.Subscribed, HashMap.get_modify, BrokerCmd.Subscribes]
    by_cases same : t = topic
    · subst same
      cases s.subscriptions.get t <;> simp [eq_comm]
    · simp [same, Ne.symm same]
  | _ => simp [runBroker, BrokerState.Subscribed, BrokerCmd.Subscribes]

theorem connections_runBroker (c : ConnId) (tx : Sender) :
    (runBroker s cmd).1.connections.get c = some tx ↔
      cmd.Stores s c tx ∨
        ((∀ tx', ¬ cmd.Stores s c tx') ∧ cmd ≠ .unregister c) ∧
          s.connections.get c = some tx := by
  cases cmd with
  | unregister connId =>
    simp only [runBroker, HashMap.get_remove, BrokerCmd.Stores]
    by_cases same : c = connId
    · simp [same]
    · simp [same, Ne.symm same]
  | subscribeDirect topic tx' =>
    simp only [runBroker, HashMap.get_insert, BrokerCmd.Stores]
    by_cases same : c = s.syntheticId
    · simp [same]
    · simp [same, Ne.symm same]
  | _ => simp [runBroker, BrokerCmd.Stores]

end Stardust
