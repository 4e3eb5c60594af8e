import UosTv.Serde.JsonString
import UosTv.Stardust.Routing

/-!
The Unix client (`client.rs`): what it sends and what its I/O task does with a message.

A `Client` handle is a sender and three maps that all its clones share. Control frames
carry their string as `serde_json` writes it, and `handle_connection` takes the bytes of a
frame as they are: what the broker works with is the JSON text of the string, quotation
marks included (`control_frames_quoted`).
-/

namespace Stardust

open Past Rust SerdeJson

/-- A channel that `subscribe` creates; its receiver is what `subscribe` returns. -/
abbrev RxId := Nat

/-- `Client`: what the clones of a handle share. Of a pending call only the channel for its
response matters, by number. -/
structure Client where
  pending : HashMap Uuid Nat
  serviceName : Option String
  subscribers : HashMap String (List RxId)

namespace Client

/-- What `connect` starts with. -/
def new : Client := ⟨∅, none, ∅⟩

/-! ### Frames -/

/-- `register`. -/
def registerFrame (stamp : Stamp) (name : String) : Message :=
  ((Message.new stamp "__stardust.register").withSrc name).paramsRaw (toVec name)

/-- `subscribe`. -/
def subscribeFrame (client : Client) (stamp : Stamp) (topic : String) : Message :=
  ((Message.new stamp "__stardust.subscribe").withSrc (client.serviceName.getD "")).paramsRaw
    (toVec topic)

/-- `unsubscribe`. -/
def unsubscribeFrame (client : Client) (stamp : Stamp) (topic : String) : Message :=
  ((Message.new stamp "__stardust.unsubscribe").withSrc (client.serviceName.getD "")).paramsRaw
    (toVec topic)

/-- `call`, with the parameters as `serde_json` writes them. -/
def callFrame (client : Client) (stamp : Stamp) (method : String) (params : List UInt8) : Message :=
  ((Message.new stamp method).withSrc (client.serviceName.getD "")).paramsRaw params

/-- `drop`, for one of the topics. -/
def dropFrame (stamp : Stamp) (topic : String) : Message :=
  (Message.new stamp "__stardust.unsubscribe").paramsRaw (toVec topic)

section Frames

variable (c : ConnId) (client : Client) (stamp : Stamp) (t : String)

@[simp] theorem handleFrame_registerFrame :
    handleFrame c (registerFrame stamp t) = .register c (quoted t) := by
  simp [handleFrame, registerFrame, Message.new, Message.withSrc, Message.paramsRaw,
    fromUtf8Lossy_toVec]

@[simp] theorem handleFrame_subscribeFrame :
    handleFrame c (client.subscribeFrame stamp t) = .subscribe c (quoted t) := by
  simp [handleFrame, subscribeFrame, Message.new, Message.withSrc, Message.paramsRaw,
    fromUtf8Lossy_toVec]

@[simp] theorem handleFrame_unsubscribeFrame :
    handleFrame c (client.unsubscribeFrame stamp t) = .unsubscribe c (quoted t) := by
  simp [handleFrame, unsubscribeFrame, Message.new, Message.withSrc, Message.paramsRaw,
    fromUtf8Lossy_toVec]

@[simp] theorem handleFrame_dropFrame :
    handleFrame c (dropFrame stamp t) = .unsubscribe c (quoted t) := by
  simp [handleFrame, dropFrame, Message.new, Message.paramsRaw, fromUtf8Lossy_toVec]

end Frames

/-! ### What becomes of a message -/

/-- What the I/O task does with an incoming message: a response for a pending call, or a
copy for a receiver. -/
inductive Delivery where
  | response (call : Nat) (response : Response)
  | message (rx : RxId) (msg : Message)

/-- The I/O task reads a message. `fromReader` is `ciborium::from_reader`. -/
def receive (fromReader : List UInt8 → Option (List UInt8)) (client : Client) (msg : Message) :
    Client × List Delivery :=
  match client.pending.get msg.id with
  | some call =>
    let result := match fromReader msg.params with
      | some result => .ok result
      | none => .error ("Failed to parse response: " ++ fromUtf8Lossy msg.params)
    ({ client with pending := client.pending.remove msg.id }, [.response call ⟨msg.id, result⟩])
  | none =>
    (client, client.subscribers.entries.flatMap fun entry =>
      if msg.matchesTopic entry.1 then entry.2.map fun tx => .message tx msg else [])

/-! ### Quoted topics -/

/-- The JSON text of a topic is matched by itself only: it is not `"*"` and ends with a
quotation mark. -/
theorem matchesTopic_quoted {msg : Message} {t : String} :
    msg.matchesTopic (quoted t) = true ↔ msg.method = quoted t := by
  apply Message.matchesTopic_exact
  · intro star
    have chars := congrArg String.toList star
    rw [toList_quoted] at chars
    cases chars
  · intro wildcard
    rw [toList_quoted] at wildcard
    have last := wildcard.getLast (by simp)
    simp at last

/-- **Control frames carry JSON texts.** Of every string, each kind of control frame makes
the broker take the JSON text of the string, which is another string; and a client that
has subscribed to a topic is not sent every message that the topic matches. -/
theorem control_frames_quoted (t : String) :
    (∀ (c : ConnId) (client : Client) (stamp : Stamp),
      handleFrame c (registerFrame stamp t) ≠ .register c t ∧
      handleFrame c (client.subscribeFrame stamp t) ≠ .subscribe c t ∧
      handleFrame c (client.unsubscribeFrame stamp t) ≠ .unsubscribe c t ∧
      handleFrame c (dropFrame stamp t) ≠ .unsubscribe c t) ∧
    ∀ (c d : ConnId) (client : Client) (stamp : Stamp), c ≠ d → ∃ h msg,
      Valid (.unix (handleFrame c (client.subscribeFrame stamp t)) :: h) ∧ Live h d ∧
        msg.matchesTopic t = true ∧
        ∀ tx, Output.send tx msg ∉
          (runBroker (tables (.unix (handleFrame c (client.subscribeFrame stamp t)) :: h))
            (.route ⟨msg, d⟩)).2 := by
  refine ⟨fun c client stamp => ?_, fun c d client stamp apart => ?_⟩
  · simp [quoted_ne t]
  · obtain ⟨method, short, matched⟩ := Message.exists_matchesTopic t
    refine ⟨[.opened c, .opened d], Message.new ⟨0, 0⟩ method, ?_, by simp [Live],
      matched _ rfl, fun tx sent => ?_⟩
    · simp [Valid, Admissible, BrokerCmd.sender, Live, apart]
    · obtain ⟨-, c', -, -, ⟨named, -⟩ | ⟨p, sub, exact⟩⟩ := BrokerState.mem_route.mp sent
      · exact named rfl
      · -- The only pattern in the tables is the JSON text of the topic.
        obtain ⟨e, g, suffix, cmd, isCmd, subscribes⟩ := (subscribed_iff.mp sub).exists_start
        obtain rfl : p = quoted t := by
          have mem := suffix.subset List.mem_cons_self
          simp only [handleFrame_subscribeFrame, List.mem_cons, List.not_mem_nil, or_false] at mem
          rcases mem with rfl | rfl | rfl
          · obtain rfl := Option.some.inj isCmd
            exact subscribes.1.symm
          · cases isCmd
          · cases isCmd
        have longer := length_lt_length_quoted t
        rw [← matchesTopic_quoted.mp exact] at longer
        exact absurd short (Nat.not_le.mpr longer)

/-- A client subscribes to a topic and another one publishes on it. -/
theorem test_topic_not_delivered :
    handleFrame 1 (new.subscribeFrame ⟨0, 0⟩ "test.topic") = .subscribe 1 "\"test.topic\"" ∧
      (Message.new ⟨1, 0⟩ "test.topic").matchesTopic "test.topic" = true ∧
      Valid [.unix (handleFrame 1 (new.subscribeFrame ⟨0, 0⟩ "test.topic")), .opened 1, .opened 0] ∧
      (runBroker (tables [.unix (handleFrame 1 (new.subscribeFrame ⟨0, 0⟩ "test.topic")), .opened 1,
        .opened 0]) (handleFrame 0 (Message.new ⟨1, 0⟩ "test.topic"))).2 = [] := by
  have frame : handleFrame 1 (new.subscribeFrame ⟨0, 0⟩ "test.topic") =
      .subscribe 1 "\"test.topic\"" := by
    rw [handleFrame_subscribeFrame]
    decide
  rw [frame]
  refine ⟨rfl, by decide, ?_, by decide⟩
  simp [Valid, Admissible, BrokerCmd.sender, Live]

end Client

end Stardust
