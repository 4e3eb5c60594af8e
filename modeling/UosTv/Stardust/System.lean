import UosTv.Stardust.Routing
import Mathlib.Logic.Function.Basic

/-!
The broker with its Unix connections, as one system of tasks.

Each connection has a task (`handle_connection`) that turns frames of its socket into
commands and writes the messages of its channel to the socket; all commands go through one
queue to `run_broker`. A step is one turn of one of these loops. Channels and the command
queue are FIFO and unbounded; a channel whose task has ended drops what is sent on it.

Three fields of the state are there for the statements only: what a client has written to
its socket, what has been handed to it, and the history of the tables.

`Inv` says where everything is. The commands of a connection, processed and queued, and the
frames not yet read are together the frames that were written; the messages handed over and
those in the channel are together what the broker has sent.
-/

namespace Stardust

open Past Rust

/-- The task of a connection: not accepted, accepted, in its loop, at its end. -/
inductive Status where
  | idle
  | spawned
  | running
  | done
deriving DecidableEq, Repr

/-- One connection. `inbox` holds the frames on their way to the task, `outbox` the messages
in its channel. -/
structure Conn where
  status : Status
  written : List Message
  inbox : List Message
  outbox : List Message
  handed : List Message

/-- What is sent on the channel of a task stays in it while the task runs. -/
def Conn.deliver (conn : Conn) (msgs : List Message) : Conn :=
  if conn.status = .running then { conn with outbox := conn.outbox ++ msgs } else conn

structure System where
  nextId : ConnId
  conns : ConnId → Conn
  queue : List BrokerCmd
  broker : BrokerState
  log : History

/-- A step: `Broker::run` accepts a connection, a task starts, a client writes a frame, a
task reads one or finds its stream at an end, a task takes a message from its channel and
writes it to the socket or fails to, the broker processes a command. -/
inductive Action where
  | accept
  | start (c : ConnId)
  | write (c : ConnId) (msg : Message)
  | read (c : ConnId)
  | close (c : ConnId)
  | send (c : ConnId)
  | sendFail (c : ConnId)
  | broker
deriving DecidableEq, Repr

namespace System

def init : System where
  nextId := 0
  conns := fun _ => ⟨.idle, [], [], [], []⟩
  queue := []
  broker := .new
  log := []

/-- Replaces one connection. -/
def setConn (s : System) (c : ConnId) (conn : Conn) : System :=
  { s with conns := Function.update s.conns c conn }

/-- Sends a command to the broker. -/
def push (s : System) (cmd : BrokerCmd) : System := { s with queue := s.queue ++ [cmd] }

/-- The end of a task: it unregisters its connection. -/
def finish (s : System) (c : ConnId) : System :=
  (s.setConn c { s.conns c with status := .done }).push (.unregister c)

/-- The messages that the broker sends reach their channels. -/
def deliver (s : System) (outs : List Output) : System :=
  { s with conns := fun c => (s.conns c).deliver (sentTo (.conn c) outs) }

/-- What a step does, if it is possible. -/
def step (s : System) : Action → Option System
  | .accept => some { s.setConn s.nextId { s.conns s.nextId with status := .spawned } with
      nextId := s.nextId + 1 }
  | .start c =>
    if (s.conns c).status = .spawned then
      some { s.setConn c { s.conns c with status := .running } with
        broker := ((Event.opened c).step s.broker).1, log := .opened c :: s.log }
    else none
  | .write c msg => some (s.setConn c { s.conns c with
      written := (s.conns c).written ++ [msg], inbox := (s.conns c).inbox ++ [msg] })
  | .read c =>
    if (s.conns c).status = .running then
      match (s.conns c).inbox with
      | [] => none
      | msg :: inbox => some ((s.setConn c { s.conns c with inbox }).push (handleFrame c msg))
    else none
  | .close c => if (s.conns c).status = .running then some (s.finish c) else none
  | .send c =>
    if (s.conns c).status = .running then
      match (s.conns c).outbox with
      | [] => none
      | msg :: outbox =>
        some (s.setConn c { s.conns c with outbox, handed := (s.conns c).handed ++ [msg] })
    else none
  | .sendFail c =>
    if (s.conns c).status = .running ∧ (s.conns c).outbox ≠ [] then some (s.finish c) else none
  | .broker =>
    match s.queue with
    | [] => none
    | cmd :: queue => some
        { s.deliver (runBroker s.broker cmd).2 with
          queue, broker := (runBroker s.broker cmd).1, log := .unix cmd :: s.log }

/-- The states that some run reaches. -/
inductive Reachable : System → Prop where
  | init : Reachable init
  | step {s s' : System} {a : Action} : Reachable s → s.step a = some s' → Reachable s'

/-- The state after a sequence of steps, if all are possible. -/
def run (s : System) : List Action → Option System
  | [] => some s
  | a :: actions => (s.step a).bind fun s' => run s' actions

theorem Reachable.run {s s' : System} {actions : List Action} (reachable : Reachable s)
    (steps : s.run actions = some s') : Reachable s' := by
  induction actions generalizing s with
  | nil =>
    obtain rfl := Option.some.inj steps
    exact reachable
  | cons a actions ih =>
    obtain ⟨next, step, steps⟩ := Option.bind_eq_some_iff.mp steps
    exact ih (reachable.step step) steps

/-! ### The invariant -/

/-- The commands of connection `c` that have left its task, in order. -/
def commands (s : System) (c : ConnId) : List BrokerCmd :=
  (commandsOf c s.log).reverse ++ s.queue.filter fun cmd => cmd.sender = some c

/-- What the broker has sent on the channel of `c`, in order. -/
def routedTo (c : ConnId) : History → List Message
  | [] => []
  | e :: h => routedTo c h ++ sentTo (.conn c) (e.step (tables h)).2

end System

/-- Frames become commands, in order and one each; the last command of a task that has
ended is its `Unregister`. -/
def Conn.Stream (c : ConnId) (cmds : List BrokerCmd) (conn : Conn) : Prop :=
  match conn.status with
  | .running => cmds ++ conn.inbox.map (handleFrame c) = conn.written.map (handleFrame c)
  | .done => ∃ frames, frames <+: conn.written ∧
      cmds = frames.map (handleFrame c) ++ [.unregister c]
  | _ => cmds = [] ∧ conn.inbox = conn.written

/-- Messages go from the broker to the socket, in order and one each. -/
def Conn.Channel (routed : List Message) (conn : Conn) : Prop :=
  match conn.status with
  | .running => conn.handed ++ conn.outbox = routed
  | .done => conn.handed <+: routed
  | _ => conn.handed = [] ∧ conn.outbox = [] ∧ routed = []

/-- The task has entered its channel into the broker's table. -/
def Conn.Started (conn : Conn) : Prop := conn.status = .running ∨ conn.status = .done

namespace Conn

variable {c : ConnId} {cmds : List BrokerCmd} {routed : List Message} {conn : Conn} {msg : Message}

theorem Stream.write (stream : conn.Stream c cmds) :
    Stream c cmds { conn with written := conn.written ++ [msg], inbox := conn.inbox ++ [msg] } := by
  unfold Stream at stream ⊢
  cases status : conn.status with
  | running =>
    simp only [status] at stream ⊢
    rw [List.map_append, List.map_append, ← List.append_assoc, stream]
  | done =>
    simp only [status] at stream ⊢
    obtain ⟨frames, written, same⟩ := stream
    exact ⟨frames, written.trans (List.prefix_append _ _), same⟩
  | _ =>
    simp only [status] at stream ⊢
    exact ⟨stream.1, by rw [stream.2]⟩

theorem Stream.read {inbox : List Message} (stream : conn.Stream c cmds)
    (running : conn.status = .running) (next : conn.inbox = msg :: inbox) :
    Stream c (cmds ++ [handleFrame c msg]) { conn with inbox } := by
  simp only [Stream, running, next, List.map_cons] at stream ⊢
  rw [List.append_assoc]
  exact stream

theorem Stream.finish (stream : conn.Stream c cmds) (running : conn.status = .running) :
    Stream c (cmds ++ [.unregister c]) { conn with status := .done } := by
  simp only [Stream, running] at stream ⊢
  obtain ⟨frames, unread, written, same, -⟩ := List.map_eq_append_iff.mp stream.symm
  exact ⟨frames, ⟨unread, written.symm⟩, by rw [same]⟩

/-- A command that has left the task and comes before another one is not the last. -/
theorem Stream.not_ended {before after : List BrokerCmd} {cmd : BrokerCmd}
    (stream : conn.Stream c (before ++ cmd :: after)) : .unregister c ∉ before := by
  have frames : ∀ frames : List Message, before <+: frames.map (handleFrame c) →
      .unregister c ∉ before := by
    intro frames early mem
    obtain ⟨msg, -, same⟩ := List.mem_map.mp (early.subset mem)
    exact handleFrame_ne_unregister same
  unfold Stream at stream
  cases status : conn.status with
  | running =>
    simp only [status] at stream
    refine frames conn.written ?_
    rw [← stream, List.append_assoc]
    exact List.prefix_append _ _
  | done =>
    simp only [status] at stream
    obtain ⟨written, -, same⟩ := stream
    refine frames written ?_
    have init := congrArg List.dropLast same
    rw [List.dropLast_append_of_ne_nil (by simp), List.dropLast_concat] at init
    rw [← init]
    exact List.prefix_append _ _
  | _ =>
    simp only [status] at stream
    exact absurd stream.1 (by simp)

/-- Something has left the task, so it has started. -/
theorem Stream.started (stream : conn.Stream c cmds) (some : cmds ≠ []) : conn.Started := by
  unfold Stream at stream
  unfold Started
  cases status : conn.status with
  | running => exact .inl rfl
  | done => exact .inr rfl
  | _ =>
    simp only [status] at stream
    exact absurd stream.1 some

@[simp] theorem status_deliver (msgs : List Message) :
    (conn.deliver msgs).status = conn.status := by
  unfold deliver
  split_ifs
  · rfl
  · rfl

theorem Stream.deliver (stream : conn.Stream c cmds) (msgs : List Message) :
    (conn.deliver msgs).Stream c cmds := by
  unfold Conn.deliver
  split_ifs
  · exact stream
  · exact stream

theorem Channel.deliver {msgs : List Message} (channel : conn.Channel routed)
    (quiet : ¬ conn.Started → msgs = []) : (conn.deliver msgs).Channel (routed ++ msgs) := by
  unfold Started at quiet
  unfold Conn.deliver
  split_ifs with running
  · simp only [Channel, running] at channel ⊢
    rw [← channel, List.append_assoc]
  · unfold Channel at channel ⊢
    cases status : conn.status with
    | running => exact absurd status running
    | done =>
      simp only [status] at channel
      exact channel.trans (List.prefix_append _ _)
    | _ =>
      simp only [status] at channel quiet
      rw [quiet (by simp), List.append_nil]
      exact channel

theorem Channel.send {outbox : List Message} (channel : conn.Channel routed)
    (running : conn.status = .running) (next : conn.outbox = msg :: outbox) :
    Channel routed { conn with outbox, handed := conn.handed ++ [msg] } := by
  simp only [Channel, running, next] at channel ⊢
  rw [← channel, List.append_assoc]
  rfl

theorem Channel.finish (channel : conn.Channel routed) (running : conn.status = .running) :
    Channel routed { conn with status := .done } := by
  simp only [Channel, running] at channel ⊢
  exact ⟨_, channel⟩

theorem Channel.handed (channel : conn.Channel routed) : conn.handed <+: routed := by
  unfold Channel at channel
  cases status : conn.status with
  | running =>
    simp only [status] at channel
    exact ⟨_, channel⟩
  | done =>
    simp only [status] at channel
    exact channel
  | _ =>
    simp only [status] at channel
    rw [channel.1]
    exact List.nil_prefix

end Conn

namespace System

structure Inv (s : System) : Prop where
  broker : s.broker = tables s.log
  valid : Valid s.log
  unix : ∀ e ∈ s.log, e.IsUnix
  named : ∀ cmd ∈ s.queue, ∃ c, cmd.sender = some c
  opened : ∀ c, .opened c ∈ s.log ↔ (s.conns c).Started
  fresh : ∀ c, s.nextId ≤ c → (s.conns c).status = .idle
  stream : ∀ c, (s.conns c).Stream c (s.commands c)
  channel : ∀ c, (s.conns c).Channel (routedTo c s.log)

theorem inv_init : Inv init where
  broker := rfl
  valid := trivial
  unix := by simp [init]
  named := by simp [init]
  opened := by simp [init, Conn.Started]
  fresh := fun _ _ => rfl
  stream := fun _ => ⟨rfl, rfl⟩
  channel := fun _ => ⟨rfl, rfl, rfl⟩

/-! ### A turn of one task -/

variable {s s' : System} {c : ConnId} {conn : Conn} {cmds : List BrokerCmd} {routed : List Message}

/-- A turn of one task leaves the tables and the other connections as they are, and adds
commands of its own to the queue. -/
theorem Inv.turn (inv : s.Inv) (c : ConnId) (conn : Conn) (cmds : List BrokerCmd) (nextId : ConnId)
    (own : ∀ cmd ∈ cmds, cmd.sender = some c)
    (started : conn.Started ↔ (s.conns c).Started)
    (later : s.nextId ≤ nextId) (fresh : nextId ≤ c → conn.status = .idle)
    (stream : conn.Stream c (s.commands c ++ cmds))
    (channel : conn.Channel (routedTo c s.log)) :
    Inv { s.setConn c conn with nextId, queue := s.queue ++ cmds } := by
  have commands : ∀ c', System.commands { s.setConn c conn with nextId, queue := s.queue ++ cmds } c' =
      s.commands c' ++ if c' = c then cmds else [] := by
    intro c'
    simp only [System.commands, setConn, List.filter_append, List.append_assoc]
    congr 2
    by_cases same : c' = c
    · subst same
      rw [if_pos rfl, List.filter_eq_self]
      simpa using own
    · rw [if_neg same, List.filter_eq_nil_iff]
      intro cmd mem
      simp [own cmd mem, Ne.symm same]
  refine ⟨inv.broker, inv.valid, inv.unix, ?_, ?_, ?_, ?_, ?_⟩
  · intro cmd mem
    rcases List.mem_append.mp mem with old | new
    · exact inv.named cmd old
    · exact ⟨c, own cmd new⟩
  · intro c'
    simp only [setConn, Function.update_apply]
    by_cases same : c' = c
    · rw [if_pos same, same, started]
      exact inv.opened c
    · rw [if_neg same]
      exact inv.opened c'
  · intro c' new
    simp only [setConn, Function.update_apply]
    by_cases same : c' = c
    · rw [if_pos same]
      exact fresh (same ▸ new)
    · rw [if_neg same]
      exact inv.fresh c' (later.trans new)
  · intro c'
    rw [commands]
    simp only [setConn, Function.update_apply]
    by_cases same : c' = c
    · rw [if_pos same, if_pos same, same]
      exact stream
    · rw [if_neg same, if_neg same, List.append_nil]
      exact inv.stream c'
  · intro c'
    simp only [setConn, Function.update_apply]
    by_cases same : c' = c
    · rw [if_pos same, same]
      exact channel
    · rw [if_neg same]
      exact inv.channel c'

theorem Inv.lt_nextId (inv : s.Inv) (running : (s.conns c).status = .running) :
    ¬ s.nextId ≤ c := by
  intro new
  rw [inv.fresh c new] at running
  cases running

theorem Inv.accept (inv : s.Inv) :
    Inv { s.setConn s.nextId { s.conns s.nextId with status := .spawned } with
      nextId := s.nextId + 1 } := by
  have idle := inv.fresh s.nextId (Nat.le_refl _)
  have turned := inv.turn s.nextId { s.conns s.nextId with status := .spawned } []
    (s.nextId + 1) (by simp) (by simp [Conn.Started, idle]) (Nat.le_succ _)
    (fun new => absurd new (Nat.not_succ_le_self _))
    (by simpa [Conn.Stream, idle] using inv.stream s.nextId)
    (by simpa [Conn.Channel, idle] using inv.channel s.nextId)
  rw [List.append_nil] at turned
  exact turned

theorem Inv.write (inv : s.Inv) (c : ConnId) (msg : Message) :
    Inv (s.setConn c { s.conns c with
      written := (s.conns c).written ++ [msg], inbox := (s.conns c).inbox ++ [msg] }) := by
  have turned := inv.turn c { s.conns c with
      written := (s.conns c).written ++ [msg], inbox := (s.conns c).inbox ++ [msg] } []
    s.nextId (by simp) Iff.rfl (Nat.le_refl _) (inv.fresh c)
    (by rw [List.append_nil]; exact (inv.stream c).write) (inv.channel c)
  rw [List.append_nil] at turned
  exact turned

theorem Inv.read (inv : s.Inv) {msg : Message} {inbox : List Message}
    (running : (s.conns c).status = .running) (next : (s.conns c).inbox = msg :: inbox) :
    Inv ((s.setConn c { s.conns c with inbox }).push (handleFrame c msg)) :=
  inv.turn c _ [handleFrame c msg] s.nextId (by simp [sender_handleFrame]) Iff.rfl (Nat.le_refl _)
    (inv.fresh c) ((inv.stream c).read running next) (inv.channel c)

theorem Inv.send (inv : s.Inv) {msg : Message} {outbox : List Message}
    (running : (s.conns c).status = .running) (next : (s.conns c).outbox = msg :: outbox) :
    Inv (s.setConn c { s.conns c with outbox, handed := (s.conns c).handed ++ [msg] }) := by
  have turned := inv.turn c { s.conns c with outbox, handed := (s.conns c).handed ++ [msg] } []
    s.nextId (by simp) Iff.rfl (Nat.le_refl _) (inv.fresh c)
    (by rw [List.append_nil]; exact inv.stream c) ((inv.channel c).send running next)
  rw [List.append_nil] at turned
  exact turned

theorem Inv.finish (inv : s.Inv) (running : (s.conns c).status = .running) :
    Inv (s.finish c) := by
  apply inv.turn c { s.conns c with status := .done } [.unregister c] s.nextId
  · simp [BrokerCmd.sender]
  · simp [Conn.Started, running]
  · exact Nat.le_refl _
  · intro new
    exact absurd new (inv.lt_nextId running)
  · exact (inv.stream c).finish running
  · exact (inv.channel c).finish running

/-! ### Turns that change the tables -/

theorem Inv.start (inv : s.Inv) (spawned : (s.conns c).status = .spawned) :
    Inv { s.setConn c { s.conns c with status := .running } with
      broker := ((Event.opened c).step s.broker).1, log := .opened c :: s.log } := by
  have notStarted : ¬ (s.conns c).Started := by simp [Conn.Started, spawned]
  have commands : ∀ c', System.commands { s.setConn c { s.conns c with status := .running } with
      broker := ((Event.opened c).step s.broker).1, log := .opened c :: s.log } c' =
        s.commands c' := fun _ => rfl
  have routed : ∀ c', routedTo c' (.opened c :: s.log) = routedTo c' s.log :=
    fun c' => List.append_nil _
  refine ⟨?_, ⟨fun mem => notStarted ((inv.opened c).mp mem), inv.valid⟩,
    List.forall_mem_cons.mpr ⟨trivial, inv.unix⟩, inv.named, ?_, ?_, ?_, ?_⟩
  · rw [inv.broker]
    rfl
  · intro c'
    simp only [setConn, Function.update_apply, List.mem_cons, Event.opened.injEq]
    by_cases same : c' = c
    · simp [same, Conn.Started]
    · rw [if_neg same, ← inv.opened c']
      simp [same]
  · intro c' new
    simp only [setConn, Function.update_apply]
    by_cases same : c' = c
    · subst same
      rw [inv.fresh c' new] at spawned
      cases spawned
    · rw [if_neg same]
      exact inv.fresh c' new
  · intro c'
    rw [commands]
    simp only [setConn, Function.update_apply]
    by_cases same : c' = c
    · subst same
      have stream := inv.stream c'
      simp only [Conn.Stream, spawned] at stream
      rw [if_pos rfl, Conn.Stream, stream.1, stream.2]
      rfl
    · rw [if_neg same]
      exact inv.stream c'
  · intro c'
    rw [routed]
    simp only [setConn, Function.update_apply]
    by_cases same : c' = c
    · subst same
      have channel := inv.channel c'
      simp only [Conn.Channel, spawned] at channel
      rw [if_pos rfl, Conn.Channel, channel.1, channel.2.1, channel.2.2]
      rfl
    · rw [if_neg same]
      exact inv.channel c'

/-- The head of the queue comes from a live connection. -/
theorem Inv.live (inv : s.Inv) {cmd : BrokerCmd} {queue : List BrokerCmd}
    (next : s.queue = cmd :: queue) : ∃ c, cmd.sender = some c ∧ Live s.log c := by
  obtain ⟨c, sender⟩ := inv.named cmd (by simp [next])
  have commands : s.commands c =
      (commandsOf c s.log).reverse ++ cmd :: queue.filter fun cmd => cmd.sender = some c := by
    rw [System.commands, next, List.filter_cons_of_pos (by simpa using sender)]
  have stream := inv.stream c
  rw [commands] at stream
  refine ⟨c, sender, (inv.opened c).mpr (stream.started (by simp)), fun ended => ?_⟩
  refine stream.not_ended (List.mem_reverse.mpr (List.mem_filterMap.mpr ⟨_, ended, ?_⟩))
  exact Event.commandOf_eq_some.mpr ⟨rfl, rfl⟩

/-- The broker has no channel of a connection that has not been opened. -/
theorem sentTo_runBroker_of_not_opened {h : History} {cmd : BrokerCmd} (valid : Valid h)
    (absent : .opened c ∉ h) : sentTo (.conn c) (runBroker (tables h) cmd).2 = [] := by
  rw [List.eq_nil_iff_forall_not_mem]
  intro msg mem
  have sent := mem_sentTo.mp mem
  cases cmd with
  | route e =>
    obtain ⟨-, c', -, stored, -⟩ := BrokerState.mem_route.mp sent
    exact absent (valid.connections_conn stored).2
  | call msg reply => simp [runBroker] at sent
  | _ => cases sent

theorem Inv.processed (inv : s.Inv) {cmd : BrokerCmd} {queue : List BrokerCmd}
    (next : s.queue = cmd :: queue) :
    Inv { s.deliver (runBroker s.broker cmd).2 with
      queue, broker := (runBroker s.broker cmd).1, log := .unix cmd :: s.log } := by
  have commands : ∀ c, System.commands { s.deliver (runBroker s.broker cmd).2 with
      queue, broker := (runBroker s.broker cmd).1, log := .unix cmd :: s.log } c =
        s.commands c := by
    intro c
    simp only [System.commands, next, commandsOf, List.filterMap_cons, List.filter_cons,
      Event.commandOf]
    by_cases own : cmd.sender = some c
    · simp [own]
    · simp [own]
  refine ⟨?_, ⟨inv.live next, inv.valid⟩, List.forall_mem_cons.mpr ⟨trivial, inv.unix⟩, ?_, ?_,
    ?_, ?_, ?_⟩
  · rw [inv.broker]
    rfl
  · intro cmd' mem
    exact inv.named cmd' (by rw [next]; exact List.mem_cons_of_mem _ mem)
  · intro c
    have opened := inv.opened c
    simp only [Conn.Started, deliver, Conn.status_deliver] at opened ⊢
    rw [← opened]
    simp
  · intro c new
    simp only [deliver, Conn.status_deliver]
    exact inv.fresh c new
  · intro c
    rw [commands]
    exact (inv.stream c).deliver _
  · intro c
    have quiet : ¬ (s.conns c).Started →
        sentTo (.conn c) (runBroker (tables s.log) cmd).2 = [] := fun notStarted =>
      sentTo_runBroker_of_not_opened inv.valid fun opened => notStarted ((inv.opened c).mp opened)
    have delivered := (inv.channel c).deliver quiet
    rw [← inv.broker] at delivered
    simpa only [routedTo, Event.step, System.deliver, inv.broker] using delivered

/-- **One step** keeps everything in its place. -/
theorem Inv.step {a : Action} (inv : s.Inv) (step : s.step a = some s') : s'.Inv := by
  cases a with
  | accept =>
    obtain rfl := Option.some.inj step
    exact inv.accept
  | write c msg =>
    obtain rfl := Option.some.inj step
    exact inv.write c msg
  | start c =>
    simp only [System.step] at step
    split_ifs at step with spawned
    obtain rfl := Option.some.inj step
    exact inv.start spawned
  | read c =>
    simp only [System.step] at step
    split_ifs at step with running
    split at step
    · cases step
    · rename_i msg inbox next
      obtain rfl := Option.some.inj step
      exact inv.read running next
  | close c =>
    simp only [System.step] at step
    split_ifs at step with running
    obtain rfl := Option.some.inj step
    exact inv.finish running
  | send c =>
    simp only [System.step] at step
    split_ifs at step with running
    split at step
    · cases step
    · rename_i msg outbox next
      obtain rfl := Option.some.inj step
      exact inv.send running next
  | sendFail c =>
    simp only [System.step] at step
    split_ifs at step with running
    obtain rfl := Option.some.inj step
    exact inv.finish running.1
  | broker =>
    simp only [System.step] at step
    split at step
    · cases step
    · rename_i cmd queue next
      obtain rfl := Option.some.inj step
      exact inv.processed next

/-- **Every run** keeps everything in its place. -/
theorem Reachable.inv (reachable : Reachable s) : s.Inv := by
  induction reachable with
  | init => exact inv_init
  | step _ step ih => exact ih.step step

end System

end Stardust
