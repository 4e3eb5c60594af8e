import UosTv.Stardust.Client

/-!
The handles of one client, and what their frames leave in the broker.

`Client` is `Clone`, and every clone's `drop` unsubscribes all topics of the shared table,
whoever else still holds a handle. So a subscription lasts until its topic is unsubscribed
or until any handle is dropped (`handles_keep_subscriptions_iff`).

The broker knows a topic by its JSON text; "subscribed" is meant so throughout.
-/

namespace Stardust

open Past Rust SerdeJson

/-- What the program does with its handles. `rx` names the channel that a subscription
creates, `reply` the one that a call creates; `timeout` is a call giving up, and `drop`
takes a stamp for each frame it sends. -/
inductive HandleOp where
  | clone
  | register (stamp : Stamp) (name : String)
  | subscribe (stamp : Stamp) (topic : String) (rx : RxId)
  | unsubscribe (stamp : Stamp) (topic : String)
  | publish (msg : Message)
  | call (stamp : Stamp) (method : String) (params : List UInt8) (reply : Nat)
  | timeout (id : Uuid)
  | drop (stamps : String → Stamp)

namespace HandleOp

/-- The effect on what the handles share. -/
def apply (client : Client) : HandleOp → Client
  | clone => client
  | register _ name => { client with serviceName := some name }
  | subscribe _ topic rx =>
    { client with subscribers := client.subscribers.upsert topic [] fun senders => senders ++ [rx] }
  | unsubscribe _ topic => { client with subscribers := client.subscribers.remove topic }
  | publish _ => client
  | call stamp _ _ reply => { client with pending := client.pending.insert stamp.id reply }
  | timeout id => { client with pending := client.pending.remove id }
  | drop _ => client

/-- The frames that are sent, in order. -/
def frames (client : Client) : HandleOp → List Message
  | clone => []
  | register stamp name => [Client.registerFrame stamp name]
  | subscribe stamp topic _ => [client.subscribeFrame stamp topic]
  | unsubscribe stamp topic => [client.unsubscribeFrame stamp topic]
  | publish msg => [msg]
  | call stamp method params _ => [client.callFrame stamp method params]
  | timeout _ => []
  | drop stamps => client.subscribers.keys.map fun topic => Client.dropFrame (stamps topic) topic

end HandleOp

namespace Client

/-- The shared state after a sequence of operations, the newest first. -/
def after : List HandleOp → Client
  | [] => new
  | op :: ops => op.apply (after ops)

/-- The frames sent, the newest first. -/
def sent : List HandleOp → List Message
  | [] => []
  | op :: ops => (op.frames (after ops)).reverse ++ sent ops

/-- The handles that are alive. -/
def handles : List HandleOp → Nat
  | [] => 1
  | .clone :: ops => handles ops + 1
  | .drop _ :: ops => handles ops - 1
  | _ :: ops => handles ops

end Client

/-- The topic was subscribed through some handle, and `Client::unsubscribe` has not been
called for it since. -/
def Wanted (t : String) (ops : List HandleOp) : Prop :=
  Since (fun op _ => ∀ stamp, op ≠ .unsubscribe stamp t)
    (fun op _ => ∃ stamp rx, op = .subscribe stamp t rx) ops

/-- The table of subscribers holds the topics that are wanted. -/
theorem mem_subscribers_after {t : String} {ops : List HandleOp} :
    t ∈ (Client.after ops).subscribers.keys ↔ Wanted t ops := by
  refine since_of_step (P := fun ops => t ∈ (Client.after ops).subscribers.keys) ?_ ?_
  · exact List.not_mem_nil
  · intro op ops
    cases op with
    | subscribe stamp topic rx =>
      simp only [Client.after, HandleOp.apply, HashMap.mem_keys_upsert]
      simp [eq_comm]
    | unsubscribe stamp topic =>
      simp only [Client.after, HandleOp.apply, HashMap.mem_keys_remove]
      simp [eq_comm]
    | _ => simp [Client.after, HandleOp.apply]

/-! ### What frames ask for -/

/-- The frame makes the broker put its connection under `p`. -/
def Message.Subscribes (p : String) (msg : Message) : Prop :=
  msg.method = "__stardust.subscribe" ∧ fromUtf8Lossy msg.params = p

/-- The frame makes the broker take its connection out from under `p`. -/
def Message.Unsubscribes (p : String) (msg : Message) : Prop :=
  msg.method = "__stardust.unsubscribe" ∧ fromUtf8Lossy msg.params = p

variable {c : ConnId} {msg : Message} {p t : String}

theorem handleFrame_eq_subscribe_iff : handleFrame c msg = .subscribe c p ↔ msg.Subscribes p := by
  unfold handleFrame Message.Subscribes
  split_ifs with register subscribe unsubscribe
  · simp [register]
  · simp [subscribe]
  · simp [unsubscribe]
  · simp [subscribe]

theorem handleFrame_eq_unsubscribe_iff :
    handleFrame c msg = .unsubscribe c p ↔ msg.Unsubscribes p := by
  unfold handleFrame Message.Unsubscribes
  split_ifs with register subscribe unsubscribe
  · simp [register]
  · simp [subscribe]
  · simp [unsubscribe]
  · simp [unsubscribe]

namespace HandleOp

/-- The operation sends a frame that subscribes to the topic. -/
def Subscribes (t : String) : HandleOp → Prop
  | subscribe _ topic _ => topic = t
  | publish msg => msg.Subscribes (quoted t)
  | call _ method params _ => method = "__stardust.subscribe" ∧ fromUtf8Lossy params = quoted t
  | _ => False

/-- The operation sends a frame that unsubscribes from the topic, as far as `drop` is
concerned whenever the topic is in the table of subscribers. -/
def Unsubscribes (client : Client) (t : String) : HandleOp → Prop
  | unsubscribe _ topic => topic = t
  | publish msg => msg.Unsubscribes (quoted t)
  | call _ method params _ => method = "__stardust.unsubscribe" ∧ fromUtf8Lossy params = quoted t
  | drop _ => t ∈ client.subscribers.keys
  | _ => False

end HandleOp

theorem subscribes_iff : msg.Subscribes p ↔ handleFrame 0 msg = .subscribe 0 p :=
  handleFrame_eq_subscribe_iff.symm

theorem unsubscribes_iff : msg.Unsubscribes p ↔ handleFrame 0 msg = .unsubscribe 0 p :=
  handleFrame_eq_unsubscribe_iff.symm

/-- The frames of a sequence of operations, by operation. -/
theorem since_sent {ops : List HandleOp} :
    Since (fun msg _ => ¬ msg.Unsubscribes (quoted t)) (fun msg _ => msg.Subscribes (quoted t))
        (Client.sent ops) ↔
      Since (fun op older => ¬ op.Unsubscribes (Client.after older) t)
        (fun op _ => op.Subscribes t) ops := by
  refine since_of_step (P := fun ops => Since (fun msg _ => ¬ Message.Unsubscribes (quoted t) msg)
    (fun msg _ => Message.Subscribes (quoted t) msg) (Client.sent ops)) (by simp [Client.sent]) ?_
  intro op ops
  cases op with
  | clone => simp [Client.sent, HandleOp.frames, HandleOp.Subscribes, HandleOp.Unsubscribes]
  | timeout id => simp [Client.sent, HandleOp.frames, HandleOp.Subscribes, HandleOp.Unsubscribes]
  | publish msg => simp [Client.sent, HandleOp.frames, HandleOp.Subscribes, HandleOp.Unsubscribes]
  | call stamp method params reply =>
    simp [Client.sent, HandleOp.frames, HandleOp.Subscribes, HandleOp.Unsubscribes,
      Message.Subscribes, Message.Unsubscribes, Client.callFrame, Message.new, Message.withSrc,
      Message.paramsRaw]
  | register stamp name =>
    simp [Client.sent, HandleOp.frames, HandleOp.Subscribes, HandleOp.Unsubscribes,
      subscribes_iff, unsubscribes_iff]
  | subscribe stamp topic rx =>
    simp [Client.sent, HandleOp.frames, HandleOp.Subscribes, HandleOp.Unsubscribes,
      subscribes_iff, unsubscribes_iff, quoted_injective.eq_iff]
  | unsubscribe stamp topic =>
    simp [Client.sent, HandleOp.frames, HandleOp.Subscribes, HandleOp.Unsubscribes,
      subscribes_iff, unsubscribes_iff, quoted_injective.eq_iff]
  | drop stamps =>
    have none : ∀ msg ∈ ((HandleOp.drop stamps).frames (Client.after ops)).reverse,
        ¬ msg.Subscribes (quoted t) := by
      simp [HandleOp.frames, subscribes_iff]
    have frames : (∀ msg ∈ ((HandleOp.drop stamps).frames (Client.after ops)).reverse,
        ¬ msg.Unsubscribes (quoted t)) ↔ t ∉ (Client.after ops).subscribers.keys := by
      simp only [HandleOp.frames, List.mem_reverse, List.forall_mem_map, unsubscribes_iff,
        Client.handleFrame_dropFrame, BrokerCmd.unsubscribe.injEq, true_and,
        quoted_injective.eq_iff]
      exact List.forall_mem_ne'
    rw [Client.sent, since_append_idle none, frames]
    simp [HandleOp.Subscribes, HandleOp.Unsubscribes]

/-! ### Subscriptions and the lifetime of handles -/

/-- The operation leaves what the frames asked for about the topic as it is. -/
def HandleOp.Spares (t : String) : HandleOp → Prop
  | unsubscribe _ topic => topic ≠ t
  | publish msg => ¬ msg.Unsubscribes (quoted t)
  | call _ method params _ =>
    ¬ (method = "__stardust.unsubscribe" ∧ fromUtf8Lossy params = quoted t)
  | drop _ => False
  | _ => True

/-- While a topic is wanted, every `drop` unsubscribes it. -/
theorem since_spares {ops : List HandleOp} (wanted : Wanted t ops) :
    Since (fun op older => ¬ op.Unsubscribes (Client.after older) t)
        (fun op _ => op.Subscribes t) ops ↔
      Since (fun op _ => op.Spares t) (fun op _ => op.Subscribes t) ops := by
  constructor
  · intro since
    induction ops with
    | nil => exact since
    | cons op ops ih =>
      rcases since with started | ⟨kept, since⟩
      · exact .inl started
      · rcases wanted with ⟨stamp, rx, rfl⟩ | ⟨stays, wanted⟩
        · exact .inl rfl
        · refine .inr ⟨?_, ih wanted since⟩
          cases op with
          | drop stamps => exact kept (mem_subscribers_after.mpr wanted)
          | unsubscribe stamp topic => exact kept
          | publish msg => exact kept
          | call stamp method params reply => exact kept
          | _ => trivial
  · intro since
    refine since.mono (fun op older _ spares => ?_) fun _ _ _ started => started
    cases op with
    | drop stamps => exact spares.elim
    | unsubscribe stamp topic => exact spares
    | publish msg => exact spares
    | call stamp method params reply => exact spares
    | _ => exact id

/-- The broker's side: a connection is opened and its frames are processed. -/
def processed (c : ConnId) (frames : List Message) : History :=
  frames.map (fun msg => .unix (handleFrame c msg)) ++ [.opened c]

theorem processed_valid (frames : List Message) : Valid (processed c frames) ∧
    Live (processed c frames) c := by
  induction frames with
  | nil => exact ⟨⟨List.not_mem_nil, trivial⟩, by simp [processed, Live]⟩
  | cons msg frames ih =>
    refine ⟨⟨⟨c, sender_handleFrame, ih.2⟩, ih.1⟩, ih.2.cons ?_⟩
    intro same
    exact handleFrame_ne_unregister (Event.unix.inj same)

theorem processed_isUnix (frames : List Message) : ∀ e ∈ processed c frames, e.IsUnix := by
  intro e mem
  rcases List.mem_append.mp mem with frame | first
  · obtain ⟨msg, -, rfl⟩ := List.mem_map.mp frame
    trivial
  · obtain rfl := List.mem_singleton.mp first
    trivial

theorem commandsOf_processed (frames : List Message) :
    commandsOf c (processed c frames) = frames.map (handleFrame c) := by
  induction frames with
  | nil => rfl
  | cons msg frames ih =>
    rw [processed, List.map_cons, List.cons_append, commandsOf, List.filterMap_cons_some
      (Event.commandOf_eq_some.mpr ⟨rfl, sender_handleFrame⟩)]
    exact congrArg _ ih

/-- A connection's frames, as its commands. -/
theorem since_handleFrame {frames : List Message} :
    Since (fun cmd _ => cmd ≠ .unsubscribe c p ∧ cmd ≠ .unregister c)
        (fun cmd _ => cmd = .subscribe c p) (frames.map (handleFrame c)) ↔
      Since (fun msg _ => ¬ msg.Unsubscribes p) (fun msg _ => msg.Subscribes p) frames := by
  induction frames with
  | nil => rfl
  | cons msg frames ih =>
    rw [List.map_cons, since_cons, since_cons, ih, handleFrame_eq_subscribe_iff, ne_eq,
      handleFrame_eq_unsubscribe_iff, and_iff_left handleFrame_ne_unregister]

/-- **Subscriptions and the lifetime of handles.** In every history in which the broker has
processed the frames that the handles sent, the connection stands under every topic that is
wanted, iff of each such topic no handle has been dropped, and no frame that unsubscribes it
published, since it was last subscribed. -/
theorem handles_keep_subscriptions_iff (ops : List HandleOp) :
    (∀ c h, Valid h → commandsOf c h = (Client.sent ops).map (handleFrame c) →
      ∀ t, Wanted t ops → (tables h).Subscribed c (quoted t)) ↔
    ∀ t, Wanted t ops → Since (fun op _ => op.Spares t) (fun op _ => op.Subscribes t) ops := by
  constructor
  · intro subscribed t wanted
    have valid := (processed_valid (c := 0) (Client.sent ops)).1
    have commands := commandsOf_processed (c := 0) (Client.sent ops)
    have sub := subscribed 0 _ valid commands t wanted
    rw [subscribed_iff_commandsOf valid (processed_isUnix _), commands, since_handleFrame,
      since_sent] at sub
    exact (since_spares wanted).mp sub
  · intro spared c h valid commands t wanted
    apply subscribed_of_commandsOf valid
    rw [commands, since_handleFrame, since_sent]
    exact (since_spares wanted).mpr (spared t wanted)

/-- A daemon subscribes, clones its handle for a task that publishes, and the task ends. -/
def publishTask : List HandleOp :=
  [.drop fun _ => ⟨2, 0⟩, .publish (Message.new ⟨1, 0⟩ "audio.state"), .clone,
    .subscribe ⟨0, 0⟩ "audio.*" 0]

/-- The daemon's own handle is alive, and its subscription is gone. -/
theorem clone_drop_unsubscribes :
    Client.handles publishTask = 1 ∧ Wanted "audio.*" publishTask ∧
      Valid (processed 0 (Client.sent publishTask)) ∧
      commandsOf 0 (processed 0 (Client.sent publishTask)) =
        (Client.sent publishTask).map (handleFrame 0) ∧
      ¬ (tables (processed 0 (Client.sent publishTask))).Subscribed 0 (quoted "audio.*") := by
  have valid := (processed_valid (c := 0) (Client.sent publishTask)).1
  have commands := commandsOf_processed (c := 0) (Client.sent publishTask)
  have wanted : Wanted "audio.*" publishTask := by
    simp [Wanted, publishTask]
  refine ⟨rfl, wanted, valid, commands, fun sub => ?_⟩
  rw [subscribed_iff_commandsOf valid (processed_isUnix _), commands, since_handleFrame,
    since_sent, since_spares wanted] at sub
  simp [publishTask, HandleOp.Subscribes, HandleOp.Spares] at sub

end Stardust
