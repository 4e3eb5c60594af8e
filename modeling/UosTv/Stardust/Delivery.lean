import UosTv.Stardust.Direct
import UosTv.Stardust.Handles

/-!
How many copies of a message reach a receiver.

Neither side looks for duplicates. The broker sends a connection one copy for the
destination and one for each of its patterns that match (`sentTo_route`); the client's I/O
task hands every copy it reads to every receiver whose topic matches. So each receiver gets
as many copies as the connection is sent, less the one that answers a pending call
(`route_copies_received`).
-/

namespace Stardust

open Past Rust

/-- What happens to a client: an operation on a handle, or its I/O task reads a message. -/
inductive ClientEvent where
  | op (op : HandleOp)
  | read (msg : Message)

/-- The event subscribes over the channel. -/
def ClientEvent.Creates (rx : RxId) : ClientEvent → Prop
  | op (.subscribe _ _ rx') => rx' = rx
  | _ => False

/-- Every subscription has a channel of its own. -/
def OwnChannels : List ClientEvent → Prop
  | [] => True
  | e :: events => (∀ rx, e.Creates rx → ∀ e' ∈ events, ¬ e'.Creates rx) ∧ OwnChannels events

namespace Client

variable (fromReader : List UInt8 → Option (List UInt8))

/-- The client after the events, the newest first. -/
def run : List ClientEvent → Client
  | [] => new
  | .op op :: events => op.apply (run events)
  | .read msg :: events => (receive fromReader (run events) msg).1

/-- The I/O task reads messages one after the other. -/
def receiveAll (client : Client) : List Message → Client × List Delivery
  | [] => (client, [])
  | msg :: msgs =>
    let (client', out) := receive fromReader client msg
    let (client'', outs) := receiveAll client' msgs
    (client'', out ++ outs)

/-- The messages handed to a receiver, in order. -/
def receivedBy (rx : RxId) (out : List Delivery) : List Message :=
  out.filterMap fun
    | .message rx' msg => if rx' = rx then some msg else none
    | .response _ _ => none

/-- The channel stands under the topic, once, and under no other. -/
structure Holds (client : Client) (t : String) (rx : RxId) : Prop where
  once : ∃ senders, client.subscribers.get t = some senders ∧ senders.count rx = 1
  only : ∀ t' senders, client.subscribers.get t' = some senders → rx ∈ senders → t' = t

variable {fromReader} {client : Client} {rx : RxId} {t : String} {msg : Message}

/-! ### One message, one receiver -/

@[simp] theorem subscribers_receive :
    (receive fromReader client msg).1.subscribers = client.subscribers := by
  unfold receive
  split
  · rfl
  · rfl

theorem receivedBy_append (a b : List Delivery) :
    receivedBy rx (a ++ b) = receivedBy rx a ++ receivedBy rx b := List.filterMap_append

theorem receivedBy_flatMap {α : Type*} (l : List α) (f : α → List Delivery) :
    receivedBy rx (l.flatMap f) = l.flatMap fun a => receivedBy rx (f a) := by
  induction l with
  | nil => rfl
  | cons a l ih => rw [List.flatMap_cons, receivedBy_append, ih, List.flatMap_cons]

theorem receivedBy_copies (senders : List RxId) :
    receivedBy rx (senders.map fun tx => .message tx msg) =
      List.replicate (senders.count rx) msg := by
  induction senders with
  | nil => rfl
  | cons tx senders ih =>
    rw [List.map_cons, ← List.singleton_append, receivedBy_append, ih]
    by_cases same : tx = rx
    · simp [receivedBy, same, List.replicate_succ]
    · simp [receivedBy, same]

/-- A message that answers a pending call is handed to no receiver; any other one to each
receiver whose topic it matches, once. -/
theorem receivedBy_receive (holds : client.Holds t rx) :
    receivedBy rx (receive fromReader client msg).2 =
      if client.pending.get msg.id = none ∧ msg.matchesTopic t = true then [msg] else [] := by
  unfold receive
  cases pending : client.pending.get msg.id with
  | some call => simp [receivedBy]
  | none =>
    obtain ⟨senders, found, once⟩ := holds.once
    rw [receivedBy_flatMap, HashMap.flatMap_entries found]
    · by_cases matched : msg.matchesTopic t = true
      · simp [matched, receivedBy_copies, once]
      · simp [matched, receivedBy]
    · intro entry mem other
      have absent : rx ∉ entry.2 := fun held =>
        other (holds.only entry.1 entry.2 (HashMap.mem_entries.mp mem) held)
      by_cases matched : msg.matchesTopic entry.1 = true
      · simp [matched, receivedBy_copies, List.count_eq_zero_of_not_mem absent]
      · simp [matched, receivedBy]

theorem Holds.receive (holds : client.Holds t rx) :
    (Client.receive fromReader client msg).1.Holds t rx := by
  refine ⟨?_, ?_⟩
  · rw [subscribers_receive]
    exact holds.once
  · rw [subscribers_receive]
    exact holds.only

/-- Copies of a message that answers no pending call. -/
theorem receivedBy_receiveAll (holds : client.Holds t rx)
    (unsolicited : client.pending.get msg.id = none) (n : Nat) :
    receivedBy rx (receiveAll fromReader client (List.replicate n msg)).2 =
      if msg.matchesTopic t = true then List.replicate n msg else [] := by
  induction n with
  | zero => simp [receiveAll, receivedBy]
  | succ n ih =>
    have unchanged : (Client.receive fromReader client msg).1 = client := by
      simp [Client.receive, unsolicited]
    simp only [List.replicate_succ, receiveAll, receivedBy_append, receivedBy_receive holds,
      unchanged, ih, unsolicited, true_and]
    by_cases matched : msg.matchesTopic t = true
    · simp [matched]
    · simp [matched]

/-- **Copies that a receiver gets.** Each copy of a message that matches its topic, but the
first one when that answers a pending call. -/
theorem receivedBy_replicate (holds : client.Holds t rx) (n : Nat) :
    receivedBy rx (receiveAll fromReader client (List.replicate n msg)).2 =
      if msg.matchesTopic t = true then
        List.replicate (n - if client.pending.get msg.id = none then 0 else 1) msg
      else [] := by
  by_cases unsolicited : client.pending.get msg.id = none
  · rw [receivedBy_receiveAll holds unsolicited, if_pos unsolicited, Nat.sub_zero]
  · cases n with
    | zero => simp [receiveAll, receivedBy]
    | succ n =>
      have answered : (Client.receive fromReader client msg).1.pending.get msg.id = none := by
        obtain ⟨call, pending⟩ := Option.ne_none_iff_exists'.mp unsolicited
        simp [Client.receive, pending, HashMap.get_remove]
      simp only [List.replicate_succ, receiveAll, receivedBy_append, receivedBy_receive holds,
        receivedBy_receiveAll holds.receive answered, unsolicited, false_and, if_false,
        List.nil_append, Nat.add_sub_cancel]

/-! ### Receivers of a run -/

/-- Every channel in the table was created by some event, and stands there as it should. -/
structure Table (events : List ClientEvent) (client : Client) : Prop where
  created : ∀ t senders rx, client.subscribers.get t = some senders → rx ∈ senders →
    ∃ e ∈ events, e.Creates rx
  holds : ∀ t senders rx, client.subscribers.get t = some senders → rx ∈ senders →
    client.Holds t rx

/-- An event that adds nothing to the table. -/
theorem Table.cons {events : List ClientEvent} {client' : Client} {e : ClientEvent}
    (table : Table events client)
    (less : ∀ t senders, client'.subscribers.get t = some senders →
      client.subscribers.get t = some senders) : Table (e :: events) client' := by
  refine ⟨fun t senders rx found mem => ?_, fun t senders rx found mem => ?_⟩
  · obtain ⟨e', older, creates⟩ := table.created t senders rx (less t senders found) mem
    exact ⟨e', List.mem_cons_of_mem _ older, creates⟩
  · have holds := table.holds t senders rx (less t senders found) mem
    refine ⟨⟨senders, found, ?_⟩, fun t' senders' found' => holds.only t' senders' (less _ _ found')⟩
    obtain ⟨senders', found', once⟩ := holds.once
    rw [less t senders found] at found'
    rwa [Option.some.inj found']

/-- A subscription puts its channel, which is new, under its topic. -/
theorem Table.subscribe {events : List ClientEvent} {stamp : Stamp} {topic : String} {new : RxId}
    (table : Table events client)
    (fresh : ∀ e ∈ events, ¬ e.Creates new) :
    Table (.op (.subscribe stamp topic new) :: events)
      ((HandleOp.subscribe stamp topic new).apply client) := by
  have absent : ∀ t senders, client.subscribers.get t = some senders → new ∉ senders := by
    intro t senders found mem
    obtain ⟨e, older, creates⟩ := table.created t senders new found mem
    exact fresh e older creates
  have held : ∀ t senders rx,
      ((HandleOp.subscribe stamp topic new).apply client).subscribers.get t = some senders →
      rx ∈ senders → rx = new ∧ t = topic ∧ senders.count new = 1 ∨
        rx ≠ new ∧ ∃ older, client.subscribers.get t = some older ∧ rx ∈ older ∧
          senders.count rx = older.count rx := by
    intro t senders rx found mem
    simp only [HandleOp.apply, HashMap.get_upsert] at found
    split_ifs at found with same
    · subst same
      obtain rfl := Option.some.inj found
      cases known : client.subscribers.get t with
      | none =>
        obtain rfl : rx = new := by simpa [known] using mem
        simp
      | some older =>
        have apart := absent t older known
        by_cases newest : rx = new
        · simp [newest, List.count_eq_zero_of_not_mem apart]
        · refine .inr ⟨newest, older, rfl, ?_, ?_⟩
          · simpa [known, newest] using mem
          · simp [Ne.symm newest]
    · refine .inr ⟨?_, senders, found, mem, rfl⟩
      rintro rfl
      exact absent t senders found mem
  refine ⟨fun t senders rx found mem => ?_, fun t senders rx found mem => ?_⟩
  · rcases held t senders rx found mem with ⟨rfl, -⟩ | ⟨-, older, found, mem, -⟩
    · exact ⟨_, List.mem_cons_self, rfl⟩
    · obtain ⟨e, earlier, creates⟩ := table.created t older rx found mem
      exact ⟨e, List.mem_cons_of_mem _ earlier, creates⟩
  · rcases held t senders rx found mem with ⟨rfl, rfl, once⟩ | ⟨other, older, known, mem, counts⟩
    · refine ⟨⟨senders, found, once⟩, fun t' senders' found' mem' => ?_⟩
      rcases held t' senders' rx found' mem' with ⟨-, same, -⟩ | ⟨other, -⟩
      · exact same
      · exact absurd rfl other
    · have holds := table.holds t older rx known mem
      refine ⟨⟨senders, found, ?_⟩, fun t' senders' found' mem' => ?_⟩
      · obtain ⟨older', known', once⟩ := holds.once
        rw [known] at known'
        rw [counts, Option.some.inj known', once]
      · rcases held t' senders' rx found' mem' with ⟨same, -⟩ | ⟨-, older', known', mem', -⟩
        · exact absurd same other
        · exact holds.only t' older' known' mem'

/-- Channels of a run, each created once, stand as they should. -/
theorem table_run {events : List ClientEvent} (own : OwnChannels events) :
    Table events (run fromReader events) := by
  induction events with
  | nil =>
    refine ⟨?_, ?_⟩
    · rintro t senders rx ⟨⟩
    · rintro t senders rx ⟨⟩
  | cons e events ih =>
    have table := ih own.2
    cases e with
    | read msg =>
      refine table.cons fun t senders found => ?_
      rwa [run, subscribers_receive] at found
    | op op =>
      cases op with
      | subscribe stamp topic rx => exact table.subscribe fun e mem => own.1 rx rfl e mem
      | unsubscribe stamp topic =>
        refine table.cons fun t senders found => ?_
        simp only [run, HandleOp.apply, HashMap.get_remove] at found
        split_ifs at found
        exact found
      | _ => exact table.cons fun _ _ found => found

end Client

open Client

variable {h : History}

/-- **Copies, end to end.** A `Route` sends each connection one copy for the destination and
one for each pattern that matches, and the sender none. Of these copies, a receiver of the
connection's client gets all that match its topic, less the first when it is taken for the
response of a pending call. -/
theorem route_copies_received (valid : Valid h) (e : Envelope) :
    (∀ c tx, (tables h).connections.get c = some tx →
      sentTo tx (runBroker (tables h) (.route e)).2 =
        List.replicate ((tables h).copies e c) e.msg) ∧
    ∀ fromReader events c t senders rx, OwnChannels events →
      (tables h).connections.get c = some (.conn c) →
      (run fromReader events).subscribers.get t = some senders → rx ∈ senders →
      receivedBy rx (receiveAll fromReader (run fromReader events)
          (sentTo (.conn c) (runBroker (tables h) (.route e)).2)).2 =
        if e.msg.matchesTopic t = true then
          List.replicate ((tables h).copies e c -
            if (run fromReader events).pending.get e.msg.id = none then 0 else 1) e.msg
        else [] := by
  have copies : ∀ c tx, (tables h).connections.get c = some tx →
      sentTo tx (runBroker (tables h) (.route e)).2 =
        List.replicate ((tables h).copies e c) e.msg :=
    fun c tx stored => BrokerState.sentTo_route (valid.owns_of_stored stored)
  refine ⟨copies, ?_⟩
  intro fromReader events c t senders rx own stored found mem
  rw [copies c _ stored, receivedBy_replicate ((table_run own).holds t senders rx found mem)]

/-- A client registers a name and subscribes to everything. -/
def overlapEvents : List ClientEvent :=
  [.op (.subscribe ⟨1, 0⟩ "*" 0), .op (.register ⟨0, 0⟩ "display")]

/-- The broker has processed its two frames, and another connection is open. -/
def overlapHistory : History :=
  [.unix (.subscribe 1 "\"*\""), .unix (.register 1 "\"display\""), .opened 1, .opened 0]

/-- A message to the name that matches the pattern as well. -/
def overlapMessage : Message := (Message.new ⟨2, 0⟩ "\"*\"").withDst "\"display\""

theorem overlapHistory_valid : Valid overlapHistory := by
  simp [overlapHistory, Valid, Admissible, BrokerCmd.sender, Live]

theorem overlapEvents_own : OwnChannels overlapEvents := by
  simp [overlapEvents, OwnChannels, ClientEvent.Creates]

theorem route_copies_received_overlap :
    sentTo (.conn 1) (runBroker (tables overlapHistory) (.route ⟨overlapMessage, 0⟩)).2 =
      List.replicate ((tables overlapHistory).copies ⟨overlapMessage, 0⟩ 1) overlapMessage ∧
    receivedBy 0 (receiveAll (fun _ => none) (run (fun _ => none) overlapEvents)
        (sentTo (.conn 1) (runBroker (tables overlapHistory) (.route ⟨overlapMessage, 0⟩)).2)).2 =
      if overlapMessage.matchesTopic "*" = true then
        List.replicate ((tables overlapHistory).copies ⟨overlapMessage, 0⟩ 1 -
          if (run (fun _ => none) overlapEvents).pending.get overlapMessage.id = none
          then 0 else 1) overlapMessage
      else [] := by
  obtain ⟨copies, received⟩ := route_copies_received overlapHistory_valid ⟨overlapMessage, 0⟩
  have stored : (tables overlapHistory).connections.get 1 = some (.conn 1) := by decide
  exact ⟨copies 1 (.conn 1) stored,
    received _ _ 1 "*" [0] 0 overlapEvents_own stored (by decide) (by decide)⟩

/-- The frames of such a client lead to that history; the connection is sent the message
twice, and the one receiver gets it twice. -/
theorem overlap_received_twice :
    Valid overlapHistory ∧
      (sent [.subscribe ⟨1, 0⟩ "*" 0, .register ⟨0, 0⟩ "display"]).map (handleFrame 1) =
        [.subscribe 1 "\"*\"", .register 1 "\"display\""] ∧
      sentTo (.conn 1) (runBroker (tables overlapHistory) (.route ⟨overlapMessage, 0⟩)).2 =
        [overlapMessage, overlapMessage] ∧
      receivedBy 0 (receiveAll (fun _ => none) (run (fun _ => none) overlapEvents)
        [overlapMessage, overlapMessage]).2 = [overlapMessage, overlapMessage] := by
  refine ⟨overlapHistory_valid, ?_, by decide, by decide⟩
  simp only [sent, HandleOp.frames, List.reverse_cons, List.reverse_nil, List.nil_append,
    List.append_nil, List.cons_append, List.map_cons, List.map_nil, handleFrame_subscribeFrame,
    handleFrame_registerFrame]
  decide

end Stardust
