import UosTv.Stardust.Delivery
import UosTv.Stardust.InOrder

/-!
A client and its I/O task, step by step, beside the system it is connected to.

`subscribe` sends its frame first and records its receiver afterwards; between the two, the
I/O task may read what the broker has already routed. The steps here are those of the tasks
of one client, connection `c` of the system: the first half of an operation, what is left of
it, and the two sides of the I/O loop. A message is handed to the receiver of a subscription
exactly when the receiver has been recorded by the time the message is read
(`subscribe_delivers_iff`).

The channel of a subscription is local to the call, so its creation is part of the step that
sends the frame.
-/

namespace Stardust

open Past Rust

/-- What is left of an operation after its first half. -/
inductive Rest where
  | record (topic : String) (rx : RxId)
  | remove (topic : String)
  | name (name : String)
  | send (msgs : List Message)
deriving DecidableEq

/-- The client at connection `c` and the rest of the world. `queue` is the channel `tx`,
`read` counts the messages taken from the socket, and `closed` says that the I/O task has
ended. `sent`, all frames put on `tx`, is there for the statements only. -/
structure ClientSystem where
  sys : System
  client : Client
  nextRx : RxId
  queue : List Message
  sent : List Message
  rest : List Rest
  read : Nat
  closed : Bool

/-- A step of the system, the halves of an operation, the I/O task writing a frame, reading
a message or ending, and the program dropping a receiver. -/
inductive ClientAction where
  | system (a : Action)
  | start (op : HandleOp)
  | finish (rest : Rest)
  | write
  | read
  | close
  | release (rx : RxId)

/-- The step writes to the socket of connection `c`. -/
def Action.Writes (c : ConnId) : Action → Bool
  | write c' _ => c' = c
  | _ => false

namespace ClientSystem

def init : ClientSystem where
  sys := .init
  client := .new
  nextRx := 0
  queue := []
  sent := []
  rest := []
  read := 0
  closed := false

/-- `self.tx.send`, which fails once the I/O task has ended. -/
def emit (w : ClientSystem) (msgs : List Message) : ClientSystem :=
  if w.closed then w else { w with queue := w.queue ++ msgs, sent := w.sent ++ msgs }

/-- An operation that sends a frame first: when that fails, the rest is not done. -/
def emitThen (w : ClientSystem) (msg : Message) (rest : Rest) : ClientSystem :=
  if w.closed then w else { w.emit [msg] with rest := w.rest ++ [rest] }

/-- The first half of an operation. A subscription takes the next channel. -/
def start (w : ClientSystem) : HandleOp → Option ClientSystem
  | .clone => some w
  | .register stamp name => some (w.emitThen (Client.registerFrame stamp name) (.name name))
  | .subscribe stamp topic rx =>
    if rx = w.nextRx then
      some { w.emitThen (w.client.subscribeFrame stamp topic) (.record topic rx) with
        nextRx := w.nextRx + 1 }
    else none
  | .unsubscribe stamp topic =>
    some (w.emitThen (w.client.unsubscribeFrame stamp topic) (.remove topic))
  | .publish msg => some (w.emit [msg])
  -- A call is pending before its frame is sent.
  | .call stamp method params reply => some { w with
      client := { w.client with pending := w.client.pending.insert stamp.id reply }
      rest := w.rest ++ [.send [w.client.callFrame stamp method params]] }
  | .timeout id => some { w with
      client := { w.client with pending := w.client.pending.remove id } }
  | .drop stamps => some { w with rest := w.rest ++ [.send ((HandleOp.drop stamps).frames w.client)] }

/-- What was left of an operation. -/
def resume (w : ClientSystem) : Rest → ClientSystem
  | .record topic rx => { w with client := { w.client with
      subscribers := w.client.subscribers.upsert topic [] fun senders => senders ++ [rx] } }
  | .remove topic => { w with client := { w.client with
      subscribers := w.client.subscribers.remove topic } }
  | .name name => { w with client := { w.client with serviceName := some name } }
  | .send [] => w
  | .send (msg :: msgs) => { w.emit [msg] with rest := w.rest ++ [.send msgs] }

/-- The next message that the I/O task of connection `c` reads. -/
def next (c : ConnId) (w : ClientSystem) : Option Message := (w.sys.conns c).handed[w.read]?

variable (c : ConnId) (fromReader : List UInt8 → Option (List UInt8))

/-- What a step does, if it is possible. Only the I/O task writes to the client's socket. -/
def step (w : ClientSystem) : ClientAction → Option ClientSystem
  | .system a =>
    if a.Writes c then none
    else (w.sys.step a).map fun sys => { w with sys }
  | .start op => w.start op
  | .finish rest =>
    if rest ∈ w.rest then some ({ w with rest := w.rest.erase rest }.resume rest) else none
  | .write =>
    match w.closed, w.queue with
    | false, msg :: queue => (w.sys.step (.write c msg)).map fun sys => { w with sys, queue }
    | _, _ => none
  | .read =>
    match w.closed, w.next c with
    | false, some msg =>
      some { w with client := (w.client.receive fromReader msg).1, read := w.read + 1 }
    | _, _ => none
  | .close => some { w with closed := true }
  | .release _ => some w

/-- The state after a run, the newest step first, if all steps are possible. -/
def exec : List ClientAction → Option ClientSystem
  | [] => some init
  | a :: run => (exec run).bind fun w => w.step c fromReader a

end ClientSystem

namespace ClientSystem

variable {c : ConnId} {fromReader : List UInt8 → Option (List UInt8)} {w w' : ClientSystem}
  {a : ClientAction} {run : List ClientAction} {t : String} {rx : RxId} {msg : Message}

/-! ### What a step does -/

/-- The step leaves the table of subscribers, the next channel and the receivers that are
left to be recorded as they are. -/
structure Quiet (w w' : ClientSystem) : Prop where
  subscribers : w'.client.subscribers = w.client.subscribers
  nextRx : w'.nextRx = w.nextRx
  records : ∀ t rx, .record t rx ∈ w'.rest → .record t rx ∈ w.rest

theorem Quiet.refl (w : ClientSystem) : Quiet w w := ⟨rfl, rfl, fun _ _ => id⟩

theorem quiet_emit (msgs : List Message) : Quiet w (w.emit msgs) := by
  unfold emit
  split_ifs
  · exact .refl w
  · exact ⟨rfl, rfl, fun _ _ => id⟩

/-- An operation of two halves that records no receiver. -/
theorem quiet_emitThen {rest : Rest} (other : ∀ t rx, rest ≠ .record t rx) :
    Quiet w (w.emitThen msg rest) := by
  unfold emitThen
  split_ifs
  · exact .refl w
  · have sent := quiet_emit (w := w) [msg]
    refine ⟨sent.subscribers, sent.nextRx, fun t rx mem => ?_⟩
    rcases List.mem_append.mp mem with old | new
    · exact old
    · exact absurd (List.mem_singleton.mp new).symm (other t rx)

/-- The first half of any operation but a subscription. -/
theorem quiet_start {op : HandleOp} (other : ∀ stamp t rx, op ≠ .subscribe stamp t rx)
    (step : w.start op = some w') : Quiet w w' := by
  cases op with
  | subscribe stamp topic rx => exact absurd rfl (other stamp topic rx)
  | clone =>
    obtain rfl := Option.some.inj step
    exact .refl w
  | register stamp name =>
    obtain rfl := Option.some.inj step
    exact quiet_emitThen (by simp)
  | unsubscribe stamp topic =>
    obtain rfl := Option.some.inj step
    exact quiet_emitThen (by simp)
  | publish msg =>
    obtain rfl := Option.some.inj step
    exact quiet_emit [msg]
  | timeout call =>
    obtain rfl := Option.some.inj step
    exact ⟨rfl, rfl, fun _ _ => id⟩
  | call stamp method params reply =>
    obtain rfl := Option.some.inj step
    exact ⟨rfl, rfl, fun t rx mem => by simpa using mem⟩
  | drop stamps =>
    obtain rfl := Option.some.inj step
    exact ⟨rfl, rfl, fun t rx mem => by simpa using mem⟩

/-- The first half of a subscription takes the next channel and leaves its receiver to be
recorded. -/
theorem start_subscribe {stamp : Stamp} (step : w.start (.subscribe stamp t rx) = some w') :
    w'.client.subscribers = w.client.subscribers ∧ rx = w.nextRx ∧ w'.nextRx = rx + 1 ∧
      ∀ t' rx', .record t' rx' ∈ w'.rest → .record t' rx' ∈ w.rest ∨ t' = t ∧ rx' = rx := by
  simp only [start] at step
  split_ifs at step with next
  obtain rfl := Option.some.inj step
  refine ⟨?_, next, by rw [next], fun t' rx' mem => ?_⟩
  · unfold emitThen
    split_ifs
    · rfl
    · exact (quiet_emit _).subscribers
  · unfold emitThen at mem
    split_ifs at mem
    · exact .inl mem
    · rcases List.mem_append.mp mem with old | new
      · exact .inl old
      · exact .inr (Rest.record.inj (List.mem_singleton.mp new))

/-- What is left of an operation has been done, and is left no longer. -/
theorem step_finish {rest : Rest} (step : w.step c fromReader (.finish rest) = some w') :
    rest ∈ w.rest ∧ w'.client.subscribers = (w.resume rest).client.subscribers ∧
      w'.nextRx = w.nextRx ∧ ∀ t rx, .record t rx ∈ w'.rest → .record t rx ∈ w.rest := by
  simp only [ClientSystem.step] at step
  split_ifs at step with left
  obtain rfl := Option.some.inj step
  cases rest with
  | send msgs =>
    cases msgs with
    | nil => exact ⟨left, rfl, rfl, fun t rx mem => List.mem_of_mem_erase mem⟩
    | cons msg msgs =>
      have sent := quiet_emit (w := { w with rest := w.rest.erase (.send (msg :: msgs)) }) [msg]
      have sent' := quiet_emit (w := w) [msg]
      refine ⟨left, sent.subscribers.trans sent'.subscribers.symm, sent.nextRx,
        fun t rx mem => ?_⟩
      rcases List.mem_append.mp mem with old | new
      · exact List.mem_of_mem_erase old
      · exact absurd (List.mem_singleton.mp new) (by simp)
  | _ => exact ⟨left, rfl, rfl, fun t rx mem => List.mem_of_mem_erase mem⟩

/-- **What a step does** to the table, the channels and the receivers left to be recorded. -/
theorem step_cases (step : w.step c fromReader a = some w') :
    (∃ stamp t rx, a = .start (.subscribe stamp t rx) ∧
      w.start (.subscribe stamp t rx) = some w') ∨
    (∃ rest, a = .finish rest) ∨
    ((∀ stamp t rx, a ≠ .start (.subscribe stamp t rx)) ∧ (∀ rest, a ≠ .finish rest) ∧
      Quiet w w') := by
  cases a with
  | start op =>
    by_cases subscription : ∃ stamp t rx, op = .subscribe stamp t rx
    · obtain ⟨stamp, t, rx, rfl⟩ := subscription
      exact .inl ⟨stamp, t, rx, rfl, step⟩
    · have other : ∀ stamp t rx, op ≠ .subscribe stamp t rx :=
        fun stamp t rx same => subscription ⟨stamp, t, rx, same⟩
      exact .inr (.inr ⟨by simpa using other, by simp, quiet_start other step⟩)
  | finish rest => exact .inr (.inl ⟨rest, rfl⟩)
  | system a =>
    simp only [ClientSystem.step] at step
    split_ifs at step
    obtain ⟨sys, -, rfl⟩ := Option.map_eq_some_iff.mp step
    exact .inr (.inr ⟨by simp, by simp, rfl, rfl, fun _ _ => id⟩)
  | write =>
    simp only [ClientSystem.step] at step
    split at step
    · obtain ⟨sys, -, rfl⟩ := Option.map_eq_some_iff.mp step
      exact .inr (.inr ⟨by simp, by simp, rfl, rfl, fun _ _ => id⟩)
    · cases step
  | read =>
    simp only [ClientSystem.step] at step
    split at step
    · obtain rfl := Option.some.inj step
      exact .inr (.inr ⟨by simp, by simp, Client.subscribers_receive, rfl, fun _ _ => id⟩)
    · cases step
  | close =>
    obtain rfl := Option.some.inj step
    exact .inr (.inr ⟨by simp, by simp, rfl, rfl, fun _ _ => id⟩)
  | release rx =>
    obtain rfl := Option.some.inj step
    exact .inr (.inr ⟨by simp, by simp, .refl w⟩)

end ClientSystem

/-! ### The table of subscribers -/

/-- The channel stands under the topic. -/
def Client.InTable (client : Client) (t : String) (rx : RxId) : Prop :=
  ∃ senders, client.subscribers.get t = some senders ∧ rx ∈ senders

/-- What a receiver is handed when a message is read. -/
theorem Client.message_mem_receive {fromReader : List UInt8 → Option (List UInt8)}
    {client : Client} {rx : RxId} {msg : Message} :
    .message rx msg ∈ (client.receive fromReader msg).2 ↔
      client.pending.get msg.id = none ∧
        ∃ t, msg.matchesTopic t = true ∧ client.InTable t rx := by
  unfold receive
  cases pending : client.pending.get msg.id with
  | some call => simp
  | none =>
    simp only [List.mem_flatMap, true_and]
    constructor
    · rintro ⟨⟨t, senders⟩, mem, delivered⟩
      split_ifs at delivered with matched
      · obtain ⟨tx, held, same⟩ := List.mem_map.mp delivered
        obtain ⟨rfl, -⟩ := Delivery.message.inj same
        exact ⟨t, matched, senders, HashMap.mem_entries.mp mem, held⟩
      · cases delivered
    · rintro ⟨t, matched, senders, found, held⟩
      refine ⟨⟨t, senders⟩, HashMap.mem_entries.mpr found, ?_⟩
      rw [if_pos matched]
      exact List.mem_map.mpr ⟨rx, held, rfl⟩

/-- The subscription has recorded its receiver, and no unsubscription has removed the topic
since. -/
def Recorded (t : String) (rx : RxId) (run : List ClientAction) : Prop :=
  Since (fun a _ => a ≠ .finish (.remove t)) (fun a _ => a = .finish (.record t rx)) run

namespace ClientSystem

variable {c : ConnId} {fromReader : List UInt8 → Option (List UInt8)} {w w' : ClientSystem}
  {a : ClientAction} {run : List ClientAction} {t : String} {rx : RxId} {msg : Message}

theorem inTable_congr {client client' : Client} (same : client.subscribers = client'.subscribers) :
    client.InTable t rx ↔ client'.InTable t rx := by
  unfold Client.InTable
  rw [same]

/-- What is left of an operation changes the table when it records or removes. -/
theorem inTable_resume {rest : Rest} :
    (w.resume rest).client.InTable t rx ↔
      rest = .record t rx ∨ rest ≠ .remove t ∧ w.client.InTable t rx := by
  cases rest with
  | record topic rx' =>
    simp only [resume, Client.InTable, HashMap.get_upsert]
    by_cases same : t = topic
    · subst same
      cases w.client.subscribers.get t <;> simp [or_comm, eq_comm]
    · simp [same, Ne.symm same]
  | remove topic =>
    simp only [resume, Client.InTable, HashMap.get_remove]
    by_cases same : t = topic
    · simp [same]
    · simp [same, Ne.symm same]
  | name name => simp [resume, Client.InTable]
  | send msgs =>
    cases msgs with
    | nil => simp [resume]
    | cons msg msgs =>
      simp only [resume, inTable_congr (quiet_emit [msg]).subscribers]
      simp

/-- **One step and the table.** -/
theorem inTable_step (step : w.step c fromReader a = some w') :
    w'.client.InTable t rx ↔
      a = .finish (.record t rx) ∨ a ≠ .finish (.remove t) ∧ w.client.InTable t rx := by
  rcases step_cases step with ⟨stamp, t, rx, rfl, started⟩ | ⟨rest, rfl⟩ | ⟨-, other, quiet⟩
  · simp [inTable_congr (start_subscribe started).1]
  · rw [inTable_congr (step_finish step).2.1, inTable_resume]
    simp
  · simp [inTable_congr quiet.subscribers, other]

/-- **A run and the table.** -/
theorem inTable_exec (exec : exec c fromReader run = some w) :
    w.client.InTable t rx ↔ Recorded t rx run := by
  induction run generalizing w with
  | nil =>
    obtain rfl := Option.some.inj exec
    simp [Client.InTable, init, Client.new, Recorded]
  | cons a run ih =>
    obtain ⟨before, earlier, step⟩ := Option.bind_eq_some_iff.mp exec
    rw [inTable_step step, ih earlier]
    exact Iff.rfl

/-! ### Channels -/

/-- A receiver is left to be recorded, and recorded, for the topic of its subscription, and
no two subscriptions take one channel. -/
structure Channels (run : List ClientAction) (w : ClientSystem) : Prop where
  left : ∀ t rx, .record t rx ∈ w.rest → ∃ stamp, .start (.subscribe stamp t rx) ∈ run
  recorded : ∀ t rx, .finish (.record t rx) ∈ run → ∃ stamp, .start (.subscribe stamp t rx) ∈ run
  fresh : ∀ stamp t rx, .start (.subscribe stamp t rx) ∈ run → rx < w.nextRx
  once : ∀ stamp t stamp' t' rx, .start (.subscribe stamp t rx) ∈ run →
    .start (.subscribe stamp' t' rx) ∈ run → t = t'

theorem channels_exec (exec : exec c fromReader run = some w) : Channels run w := by
  induction run generalizing w with
  | nil =>
    obtain rfl := Option.some.inj exec
    exact ⟨by simp [init], by simp, by simp, by simp⟩
  | cons a run ih =>
    obtain ⟨before, earlier, step⟩ := Option.bind_eq_some_iff.mp exec
    have channels := ih earlier
    have older : ∀ {t rx}, (∃ stamp, ClientAction.start (.subscribe stamp t rx) ∈ run) →
        ∃ stamp, ClientAction.start (.subscribe stamp t rx) ∈ a :: run := by
      rintro t rx ⟨stamp, mem⟩
      exact ⟨stamp, List.mem_cons_of_mem _ mem⟩
    rcases step_cases step with ⟨stamp, t, rx, rfl, started⟩ | ⟨rest, rfl⟩ | ⟨other, other', quiet⟩
    · obtain ⟨-, next, nextRx, left⟩ := start_subscribe started
      refine ⟨fun t' rx' mem => ?_, fun t' rx' mem => ?_, fun stamp' t' rx' mem => ?_, ?_⟩
      · rcases left t' rx' mem with old | ⟨rfl, rfl⟩
        · exact older (channels.left t' rx' old)
        · exact ⟨stamp, List.mem_cons_self⟩
      · exact older (channels.recorded t' rx' (by simpa using mem))
      · rw [nextRx]
        rcases List.mem_cons.mp mem with new | old
        · cases new
          exact Nat.lt_succ_self rx
        · have before := channels.fresh stamp' t' rx' old
          rw [← next] at before
          exact Nat.lt_succ_of_lt before
      · have apart : ∀ stamp' t', ClientAction.start (.subscribe stamp' t' rx) ∉ run := by
          intro stamp' t' old
          have before := channels.fresh stamp' t' rx old
          rw [← next] at before
          exact Nat.lt_irrefl rx before
        intro stamp₁ t₁ stamp₂ t₂ rx' mem mem'
        rcases List.mem_cons.mp mem with new | old
        · cases new
          rcases List.mem_cons.mp mem' with new' | old'
          · cases new'
            rfl
          · exact absurd old' (apart _ _)
        · rcases List.mem_cons.mp mem' with new' | old'
          · cases new'
            exact absurd old (apart _ _)
          · exact channels.once _ _ _ _ _ old old'
    · obtain ⟨mem, -, nextRx, left⟩ := step_finish step
      refine ⟨fun t rx mem => older (channels.left t rx (left t rx mem)),
        fun t rx done => ?_, fun stamp t rx mem => ?_, fun stamp t stamp' t' rx mem mem' => ?_⟩
      · rcases List.mem_cons.mp done with new | old
        · cases new
          exact older (channels.left t rx mem)
        · exact older (channels.recorded t rx old)
      · rw [nextRx]
        exact channels.fresh stamp t rx (by simpa using mem)
      · exact channels.once stamp t stamp' t' rx (by simpa using mem) (by simpa using mem')
    · have old : ∀ stamp t rx, ClientAction.start (.subscribe stamp t rx) ∈ a :: run →
          .start (.subscribe stamp t rx) ∈ run := by
        intro stamp t rx mem
        exact (List.mem_cons.mp mem).resolve_left (Ne.symm (other stamp t rx))
      refine ⟨fun t rx mem => older (channels.left t rx (quiet.records t rx mem)),
        fun t rx done => ?_, fun stamp t rx mem => ?_, fun stamp t stamp' t' rx mem mem' => ?_⟩
      · refine older (channels.recorded t rx ?_)
        exact (List.mem_cons.mp done).resolve_left (Ne.symm (other' _))
      · rw [quiet.nextRx]
        exact channels.fresh stamp t rx (old _ _ _ mem)
      · exact channels.once stamp t stamp' t' rx (old _ _ _ mem) (old _ _ _ mem')

/-! ### Messages that are due to a receiver -/

/-- The message that the I/O task reads next, in state `w` after `run`, is due to the
receiver of a subscription to `t`: the receiver is held, the topic has not been unsubscribed
since, and the broker had processed the frame of the subscription when it routed the
message. -/
def Due (c : ConnId) (fromReader : List UInt8 → Option (List UInt8)) (run : List ClientAction)
    (w : ClientSystem) (t : String) (rx : RxId) : Prop :=
  .release rx ∉ run ∧
  ∃ later earlier stamp before, run = later ++ .start (.subscribe stamp t rx) :: earlier ∧
    (∀ stamp', .start (.unsubscribe stamp' t) ∉ later) ∧
    exec c fromReader earlier = some before ∧
    ∃ e g, .unix (.route e) :: g <:+ w.sys.log ∧
      before.sent.length < (commandsOf c g).length ∧
      (System.routedTo c g).length ≤ w.read ∧
      w.read < (System.routedTo c (.unix (.route e) :: g)).length

theorem Due.subscribed (due : Due c fromReader run w t rx) :
    ∃ stamp, .start (.subscribe stamp t rx) ∈ run := by
  obtain ⟨-, later, earlier, stamp, before, rfl, -⟩ := due
  exact ⟨stamp, List.mem_append_cons_self⟩

/-- A receiver is handed what its topic matches while it is in the table. -/
theorem delivered_iff (exec : exec c fromReader run = some w)
    (subscribed : ∃ stamp, .start (.subscribe stamp t rx) ∈ run)
    (matched : msg.matchesTopic t = true) :
    .message rx msg ∈ (w.client.receive fromReader msg).2 ↔
      Recorded t rx run ∧ w.client.pending.get msg.id = none := by
  rw [Client.message_mem_receive, and_comm]
  refine and_congr_left fun _ => ?_
  rw [← inTable_exec exec]
  constructor
  · rintro ⟨t', -, held⟩
    obtain ⟨a, g, suffix, rfl⟩ := Since.exists_start ((inTable_exec exec).mp held)
    have channels := channels_exec exec
    obtain ⟨stamp', started'⟩ :=
      channels.recorded t' rx (suffix.subset List.mem_cons_self)
    obtain ⟨stamp, started⟩ := subscribed
    rwa [channels.once stamp t stamp' t' rx started started']
  · intro held
    exact ⟨t, matched, held⟩

/-- **Subscriptions and the I/O task.** In every run, every message that is due to a receiver
and matches its topic is handed to it when it is read, iff each such message is read when
the receiver has been recorded and not removed again, and answers no pending call. -/
theorem subscribe_delivers_iff (c : ConnId) (fromReader : List UInt8 → Option (List UInt8))
    (run : List ClientAction) :
    (∀ older w msg t rx, .read :: older <:+ run → exec c fromReader older = some w →
      w.next c = some msg → Due c fromReader older w t rx → msg.matchesTopic t = true →
        .message rx msg ∈ (w.client.receive fromReader msg).2) ↔
    ∀ older w msg t rx, .read :: older <:+ run → exec c fromReader older = some w →
      w.next c = some msg → Due c fromReader older w t rx → msg.matchesTopic t = true →
        Recorded t rx older ∧ w.client.pending.get msg.id = none := by
  constructor
  · intro delivers older w msg t rx suffix reached next due matched
    exact (delivered_iff reached due.subscribed matched).mp
      (delivers older w msg t rx suffix reached next due matched)
  · intro recorded older w msg t rx suffix reached next due matched
    exact (delivered_iff reached due.subscribed matched).mpr
      (recorded older w msg t rx suffix reached next due matched)

/-- A message that `"*"` matches, as does the pattern that the broker stores for it. -/
def quotedStar : Message := Message.new ⟨1, 0⟩ "\"*\""

/-- The client, connection 1, has sent the frame of a subscription; the broker has processed
it and routed a message of connection 0 to the client's socket. The newest step first. -/
def raceRun : List ClientAction :=
  [.system (.send 1), .system .broker, .system (.read 0), .system (.write 0 quotedStar),
    .system .broker, .system (.read 1), .write, .start (.subscribe ⟨0, 0⟩ "*" 0),
    .system (.start 1), .system (.start 0), .system .accept, .system .accept]

/-- The I/O task reads the message before the receiver has been recorded: it is due to the
receiver, and it is lost. -/
theorem race_loses_message : ∃ w, exec 1 (fun _ => none) raceRun = some w ∧
    w.rest = [.record "*" 0] ∧ w.next 1 = some quotedStar ∧
    Due 1 (fun _ => none) raceRun w "*" 0 ∧ quotedStar.matchesTopic "*" = true ∧
    (w.client.receive (fun _ => none) quotedStar).2 = [] := by
  have possible : (exec 1 (fun _ => none) raceRun).isSome := by rfl
  obtain ⟨w, reached⟩ := Option.isSome_iff_exists.mp possible
  have facts : (exec 1 (fun _ => none) raceRun).map
      (fun w => (w.rest, w.next 1, w.read, w.sys.log, w.client)) =
        some ([.record "*" 0], some quotedStar, 0,
          [.unix (.route ⟨quotedStar, 0⟩), .unix (.subscribe 1 "\"*\""), .opened 1, .opened 0],
          Client.new) := by rfl
  rw [reached] at facts
  simp only [Option.map_some, Option.some.injEq, Prod.mk.injEq] at facts
  obtain ⟨rest, next, read, log, client⟩ := facts
  refine ⟨w, reached, rest, next, ⟨by simp [raceRun], ?_⟩, rfl, by rw [client]; rfl⟩
  have start : (exec 1 (fun _ => none) (raceRun.drop 8)).map (fun w => w.sent) = some [] := by rfl
  obtain ⟨before, earlier, sent⟩ := Option.map_eq_some_iff.mp start
  refine ⟨raceRun.take 7, raceRun.drop 8, ⟨0, 0⟩, before, rfl, by simp [raceRun], earlier,
    ⟨quotedStar, 0⟩, _, by rw [log], ?_, ?_, ?_⟩
  · rw [sent]
    decide
  · rw [read]
    decide
  · rw [read]
    decide

end ClientSystem

end Stardust
