import UosTv.Stardust.Handles

/-!
What the services of a bus hear.

Every daemon reaches the broker through `Client`, and Luna through the WebSocket bridge. The steps
below are those of the whole bus: connections are accepted and end, services do what they like with
their handles, the tasks of the connections read frames, the bridge takes requests, the broker
processes one command after the other, and the I/O tasks of the clients read what comes back.

The control frames of a client carry the JSON text of a name or topic, and the broker takes this text
for the name or the topic. So a message gets to a service only if its destination or its method is
such a text (`services_hear`), and as long as nobody writes one, the broker sends nothing to any
service: neither events, nor the commands of Luna, nor answers.

Ids from 100000 on are left out, since the broker also gives them to subscriptions of the bridge.
-/

namespace Stardust

open Past Rust SerdeJson

/-- A service: what it has done with its handles, newest first, and the client they share. `up` holds
the frames on their way to the task of its connection and `down` the messages on their way back;
`heard` are those that the I/O task has read, and `handed` is what has become of them. -/
structure Service where
  ops : List HandleOp
  client : Client
  connected : Bool
  up : List Message
  down : List Message
  heard : List Message
  handed : List Client.Delivery

/-- The services, the broker with its queue, and what the bridge has been asked for. `channels`
counts the channels that it has created. -/
structure Bus where
  services : ConnId → Service
  queue : List Event
  log : History
  channels : Nat
  requests : List WsRequest

/-- A connection is accepted, a service uses a handle, the task of a connection reads a frame or
ends, a WebSocket client asks for something, the broker processes a command, a client reads a
message. -/
inductive Move where
  | accept (c : ConnId)
  | op (c : ConnId) (op : HandleOp)
  | read (c : ConnId)
  | close (c : ConnId)
  | request (w : WsId) (stamp : Stamp) (request : WsRequest)
  | broker
  | hear (c : ConnId)

/-- What the move does with the handles of the service. -/
def Move.ops (c : ConnId) : Move → List HandleOp
  | .op c' used => if c = c' then [used] else []
  | _ => []

/-- What the move asks the bridge for. -/
def Move.requests : Move → List WsRequest
  | .request _ _ asked => [asked]
  | _ => []

namespace Bus

def init : Bus := ⟨fun _ => ⟨[], .new, false, [], [], [], []⟩, [], [], 0, []⟩

variable (b : Bus)

def setService (c : ConnId) (service : Service) : Bus :=
  { b with services := Function.update b.services c service }

/-- What the broker sends reaches the services that are connected. -/
def deliver (outs : List Output) : Bus :=
  { b with services := fun c =>
      if (b.services c).connected then
        { b.services c with down := (b.services c).down ++ sentTo (.conn c) outs }
      else b.services c }

variable (fromReader : List UInt8 → Option (List UInt8))

/-- What a move does, if it is possible. -/
def step : Move → Option Bus
  | .accept c =>
    if .opened c ∈ b.log then none
    else some { b.setService c { b.services c with connected := true } with log := .opened c :: b.log }
  | .op c op => some (b.setService c { b.services c with
      ops := op :: (b.services c).ops
      client := op.apply (b.services c).client
      up := (b.services c).up ++ op.frames (b.services c).client })
  | .read c =>
    match (b.services c).connected, (b.services c).up with
    | true, msg :: up => some { b.setService c { b.services c with up } with
        queue := b.queue ++ [.unix (handleFrame c msg)] }
    | _, _ => none
  | .close c =>
    if (b.services c).connected then
      some { b.setService c { b.services c with connected := false } with
        queue := b.queue ++ [.unix (.unregister c)] }
    else none
  | .request w stamp request => some { b with
      queue := b.queue ++ [.ws w (handleWsMessage w b.channels stamp request)]
      channels := b.channels + 1
      requests := request :: b.requests }
  | .broker =>
    match b.queue with
    | e :: queue => some { b.deliver (e.step (tables b.log)).2 with queue, log := e :: b.log }
    | [] => none
  | .hear c =>
    match (b.services c).down with
    | msg :: down =>
      let received := (b.services c).client.receive fromReader msg
      some (b.setService c { b.services c with
        client := received.1
        down
        heard := (b.services c).heard ++ [msg]
        handed := (b.services c).handed ++ received.2 })
    | [] => none

/-- The bus after a run, the newest move first, if all moves are possible. -/
def exec : List Move → Option Bus
  | [] => some init
  | move :: run => (exec run).bind fun b => b.step fromReader move

end Bus

/-! ### What is asked for -/

/-- The methods that `handle_connection` takes for itself. -/
def controlMethods : List String :=
  ["__stardust.register", "__stardust.subscribe", "__stardust.unsubscribe"]

/-- What is published or called is no control frame. -/
def HandleOp.Plain : HandleOp → Prop
  | .publish msg => msg.method ∉ controlMethods
  | .call _ method _ _ => method ∉ controlMethods
  | _ => True

/-- The service has asked for what the command does: names and topics are the JSON texts of those
that went through its handles. -/
def BrokerCmd.Asked (ops : List HandleOp) : BrokerCmd → Prop
  | .register _ n => ∃ stamp name, .register stamp name ∈ ops ∧ n = quoted name
  | .subscribe _ t => ∃ stamp topic rx, .subscribe stamp topic rx ∈ ops ∧ t = quoted topic
  | .route envelope => ∃ op ∈ ops, ∃ client : Client, envelope.msg ∈ op.frames client
  | .unsubscribe _ _ | .unregister _ => True
  | _ => False

/-- The message has the JSON text of a name of the service for its destination, or that of one of
its topics for its method. -/
def Addressed (ops : List HandleOp) (msg : Message) : Prop :=
  (∃ stamp name, .register stamp name ∈ ops ∧ msg.dst = quoted name) ∨
    ∃ stamp topic rx, .subscribe stamp topic rx ∈ ops ∧ msg.method = quoted topic

section Asked

variable {ops ops' : List HandleOp} {c : ConnId} {msg : Message} {cmd : BrokerCmd} {op : HandleOp}

theorem BrokerCmd.Asked.mono (asked : cmd.Asked ops) (more : ∀ op ∈ ops, op ∈ ops') :
    cmd.Asked ops' := by
  cases cmd with
  | register connId n =>
    obtain ⟨stamp, name, mem, same⟩ := asked
    exact ⟨stamp, name, more _ mem, same⟩
  | subscribe connId t =>
    obtain ⟨stamp, topic, rx, mem, same⟩ := asked
    exact ⟨stamp, topic, rx, more _ mem, same⟩
  | route envelope =>
    obtain ⟨op, mem, client, frame⟩ := asked
    exact ⟨op, more _ mem, client, frame⟩
  | unsubscribe connId t => trivial
  | unregister connId => trivial
  | registerService name => exact asked
  | subscribeDirect topic tx => exact asked
  | unsubscribeDirect topic tx => exact asked
  | call msg reply => exact asked

theorem Addressed.mono (addressed : Addressed ops msg) (more : ∀ op ∈ ops, op ∈ ops') :
    Addressed ops' msg := by
  rcases addressed with ⟨stamp, name, mem, same⟩ | ⟨stamp, topic, rx, mem, same⟩
  · exact .inl ⟨stamp, name, more _ mem, same⟩
  · exact .inr ⟨stamp, topic, rx, more _ mem, same⟩

theorem handleFrame_plain (plain : msg.method ∉ controlMethods) : handleFrame c msg = .route ⟨msg, c⟩ := by
  simp only [controlMethods, List.mem_cons, List.not_mem_nil, or_false, not_or] at plain
  rw [handleFrame, if_neg plain.1, if_neg plain.2.1, if_neg plain.2.2]

/-- The frames of an operation ask for what the operation does. -/
theorem asked_handleFrame {client : Client} (mem : op ∈ ops) (plain : op.Plain)
    (frame : msg ∈ op.frames client) : (handleFrame c msg).Asked ops := by
  cases op with
  | clone => cases frame
  | timeout id => cases frame
  | register stamp name =>
    rw [List.mem_singleton.mp frame, Client.handleFrame_registerFrame]
    exact ⟨stamp, name, mem, rfl⟩
  | subscribe stamp topic rx =>
    rw [List.mem_singleton.mp frame, Client.handleFrame_subscribeFrame]
    exact ⟨stamp, topic, rx, mem, rfl⟩
  | unsubscribe stamp topic =>
    rw [List.mem_singleton.mp frame, Client.handleFrame_unsubscribeFrame]
    trivial
  | drop stamps =>
    obtain ⟨topic, -, rfl⟩ := List.mem_map.mp frame
    rw [Client.handleFrame_dropFrame]
    trivial
  | publish published =>
    obtain rfl := List.mem_singleton.mp frame
    rw [handleFrame_plain plain]
    exact ⟨_, mem, client, frame⟩
  | call stamp method params reply =>
    obtain rfl := List.mem_singleton.mp frame
    have plain : (client.callFrame stamp method params).method ∉ controlMethods := plain
    rw [handleFrame_plain plain]
    exact ⟨_, mem, client, frame⟩

end Asked

/-! ### What the broker sends -/

/-- The message went through a handle, or the bridge was asked to publish it. -/
def Bus.Published (b : Bus) (msg : Message) : Prop :=
  (∃ c, ∃ op ∈ (b.services c).ops, ∃ client : Client, msg ∈ op.frames client) ∨
    ∃ stamp method params, WsRequest.publish method params ∈ b.requests ∧
      msg = wsMessage stamp method params

/-- Somebody on the bus has asked for the event. -/
def Event.Asked (b : Bus) : Event → Prop
  | .unix cmd => ∃ c, cmd.sender = some c ∧ cmd.Asked (b.services c).ops
  | .ws _ cmd => ∃ w k stamp, ∃ request ∈ b.requests, cmd = handleWsMessage w k stamp request
  | _ => True

section Sent

variable {b : Bus} {e : Event} {h : History} {c d : ConnId} {msg : Message} {n t : String} {tx : Sender}

/-- Only a message that is routed is sent on. -/
theorem Event.route_of_send {s : BrokerState} (sent : .send tx msg ∈ (e.step s).2) :
    ∃ envelope, e.cmd = some (.route envelope) ∧ .send tx msg ∈ s.route envelope := by
  have command {cmd : BrokerCmd} (sent : .send tx msg ∈ (runBroker s cmd).2) :
      ∃ envelope, cmd = .route envelope ∧ .send tx msg ∈ s.route envelope := by
    cases cmd with
    | route envelope => exact ⟨envelope, rfl, sent⟩
    | call msg reply => cases List.mem_singleton.mp sent
    | _ => cases sent
  cases e with
  | opened c => cases sent
  | wsGone w => cases sent
  | unix cmd =>
    obtain ⟨envelope, rfl, sent⟩ := command sent
    exact ⟨envelope, rfl, sent⟩
  | ws w cmd =>
    obtain ⟨envelope, rfl, sent⟩ := command sent
    exact ⟨envelope, rfl, sent⟩

/-- The bridge enters no channel of a connection. -/
theorem connections_asked (log : ∀ e ∈ h, e.Asked b)
    (stored : (tables h).connections.get d = some (.conn c)) : d = c := by
  obtain ⟨e, g, suffix, ⟨-, same⟩ | ⟨cmd, isCmd, stores⟩⟩ := (connections_iff.mp stored).exists_start
  · exact (Sender.conn.inj same).symm
  · have asked := log e (suffix.subset List.mem_cons_self)
    cases e with
    | opened c => cases isCmd
    | wsGone w => cases isCmd
    | unix cmd =>
      obtain rfl := Option.some.inj isCmd
      obtain ⟨c, -, asked⟩ := asked
      cases cmd with
      | subscribeDirect topic tx => exact asked.elim
      | _ => cases stores
    | ws w cmd =>
      obtain rfl := Option.some.inj isCmd
      obtain ⟨w, k, stamp, request, -, rfl⟩ := asked
      cases request with
      | subscribe topic => cases stores.2
      | _ => cases stores

/-- A name of a connection is a JSON text. -/
theorem services_asked (small : c < 100000) (log : ∀ e ∈ h, e.Asked b)
    (named : (tables h).services.get n = some c) :
    ∃ stamp name, .register stamp name ∈ (b.services c).ops ∧ n = quoted name := by
  obtain ⟨e, g, suffix, cmd, isCmd, registers⟩ := (services_iff.mp named).exists_start
  have asked := log e (suffix.subset List.mem_cons_self)
  cases e with
  | opened c => cases isCmd
  | wsGone w => cases isCmd
  | unix cmd =>
    obtain rfl := Option.some.inj isCmd
    obtain ⟨c', sender, asked⟩ := asked
    cases cmd with
    | register connId serviceName =>
      obtain ⟨rfl, rfl⟩ := registers
      obtain rfl := Option.some.inj sender
      exact asked
    | registerService name => exact asked.elim
    | _ => cases registers
  | ws w cmd =>
    obtain rfl := Option.some.inj isCmd
    obtain ⟨w, k, stamp, request, -, rfl⟩ := asked
    cases request with
    | register name =>
      have large : u64Max = c := registers.2
      exact absurd small (by rw [← large, u64Max]; decide)
    | _ => cases registers

/-- A topic of a connection is a JSON text. -/
theorem subscribed_asked (small : c < 100000) (log : ∀ e ∈ h, e.Asked b)
    (sub : (tables h).Subscribed c t) :
    ∃ stamp topic rx, .subscribe stamp topic rx ∈ (b.services c).ops ∧ t = quoted topic := by
  obtain ⟨e, g, suffix, cmd, isCmd, subscribes⟩ := (subscribed_iff.mp sub).exists_start
  have asked := log e (suffix.subset List.mem_cons_self)
  cases e with
  | opened c => cases isCmd
  | wsGone w => cases isCmd
  | unix cmd =>
    obtain rfl := Option.some.inj isCmd
    obtain ⟨c', sender, asked⟩ := asked
    cases cmd with
    | subscribe connId topic =>
      obtain ⟨rfl, rfl⟩ := subscribes
      obtain rfl := Option.some.inj sender
      exact asked
    | subscribeDirect topic tx => exact asked.elim
    | _ => cases subscribes
  | ws w cmd =>
    obtain rfl := Option.some.inj isCmd
    obtain ⟨w, k, stamp, request, -, rfl⟩ := asked
    cases request with
    | subscribe topic =>
      have synthetic : (tables g).connections.len + 100000 = c := subscribes.2
      exact absurd small (Nat.not_lt.mpr (synthetic ▸ Nat.le_add_left _ _))
    | _ => cases subscribes

theorem published_of_route {envelope : Envelope} (asked : e.Asked b)
    (isCmd : e.cmd = some (.route envelope)) : b.Published envelope.msg := by
  cases e with
  | opened c => cases isCmd
  | wsGone w => cases isCmd
  | unix cmd =>
    obtain rfl := Option.some.inj isCmd
    obtain ⟨c, -, frame⟩ := asked
    exact .inl ⟨c, frame⟩
  | ws w cmd =>
    obtain rfl := Option.some.inj isCmd
    obtain ⟨w, k, stamp, request, mem, same⟩ := asked
    cases request with
    | publish method params =>
      obtain rfl := BrokerCmd.route.inj same
      exact .inr ⟨stamp, method, params, mem, rfl⟩
    | _ => cases same

/-- What is sent to a connection has been published, and addresses the connection. -/
theorem sent_asked (small : c < 100000) (log : ∀ e ∈ h, e.Asked b) (asked : e.Asked b)
    (sent : .send (.conn c) msg ∈ (e.step (tables h)).2) :
    Addressed (b.services c).ops msg ∧ b.Published msg := by
  obtain ⟨envelope, isCmd, routed⟩ := Event.route_of_send sent
  obtain ⟨rfl, d, -, stored, due⟩ := BrokerState.mem_route.mp routed
  obtain rfl := connections_asked log stored
  refine ⟨?_, published_of_route asked isCmd⟩
  rcases due with ⟨-, named⟩ | ⟨p, sub, matched⟩
  · exact .inl (services_asked small log named)
  · obtain ⟨stamp, topic, rx, mem, rfl⟩ := subscribed_asked small log sub
    exact .inr ⟨stamp, topic, rx, mem, Client.matchesTopic_quoted.mp matched⟩

end Sent

/-! ### One move -/

/-- Nothing that was asked for is forgotten. -/
structure Bus.Grown (b b' : Bus) : Prop where
  ops : ∀ c, ∀ op ∈ (b.services c).ops, op ∈ (b'.services c).ops
  requests : ∀ request ∈ b.requests, request ∈ b'.requests

/-- All frames, commands and messages come from what was asked for. -/
structure Bus.Sourced (b : Bus) : Prop where
  queue : ∀ e ∈ b.queue, e.Asked b
  log : ∀ e ∈ b.log, e.Asked b
  up : ∀ c, ∀ msg ∈ (b.services c).up, (handleFrame c msg).Asked (b.services c).ops
  reached : ∀ c < 100000, ∀ msg ∈ (b.services c).heard ++ (b.services c).down,
    Addressed (b.services c).ops msg ∧ b.Published msg
  silent : ∀ c, (b.services c).heard = [] → (b.services c).handed = []

section Moves

variable {b b' : Bus} {e : Event} {c d : ConnId} {msg : Message} {service : Service}

theorem Event.Asked.mono (asked : e.Asked b) (grown : b.Grown b') : e.Asked b' := by
  cases e with
  | opened c => trivial
  | wsGone w => trivial
  | unix cmd =>
    obtain ⟨c, sender, asked⟩ := asked
    exact ⟨c, sender, asked.mono (grown.ops c)⟩
  | ws w cmd =>
    obtain ⟨w, k, stamp, request, mem, same⟩ := asked
    exact ⟨w, k, stamp, request, grown.requests _ mem, same⟩

theorem Bus.Published.mono (published : b.Published msg) (grown : b.Grown b') : b'.Published msg := by
  rcases published with ⟨c, op, mem, frame⟩ | ⟨stamp, method, params, mem, same⟩
  · exact .inl ⟨c, op, grown.ops c _ mem, frame⟩
  · exact .inr ⟨stamp, method, params, grown.requests _ mem, same⟩

theorem Move.mem_ops {move : Move} {op : HandleOp} (mem : op ∈ move.ops c) : move = .op c op := by
  cases move with
  | op c' op' =>
    rw [Move.ops] at mem
    split at mem
    · rename_i here
      rw [here, List.mem_singleton.mp mem]
    · cases mem
  | _ => cases mem

theorem Move.mem_requests {move : Move} {request : WsRequest} (mem : request ∈ move.requests) :
    ∃ w stamp, move = .request w stamp request := by
  cases move with
  | request w stamp asked =>
    obtain rfl := List.mem_singleton.mp mem
    exact ⟨w, stamp, rfl⟩
  | _ => cases mem

namespace Bus

theorem services_setService :
    (b.setService c service).services d = if d = c then service else b.services d :=
  Function.update_apply _ _ _ _

theorem grown_setService (ops : ∀ op ∈ (b.services c).ops, op ∈ service.ops) :
    b.Grown (b.setService c service) where
  ops d op mem := by
    rw [services_setService]
    split
    · rename_i here
      exact ops op (here ▸ mem)
    · exact mem
  requests _ mem := mem

namespace Sourced

/-- A turn of one service. -/
theorem turn (sourced : b.Sourced) (ops : ∀ op ∈ (b.services c).ops, op ∈ service.ops)
    (up : ∀ msg ∈ service.up, (handleFrame c msg).Asked service.ops)
    (reached : ∀ msg ∈ service.heard ++ service.down,
      msg ∈ (b.services c).heard ++ (b.services c).down)
    (silent : service.heard = [] → service.handed = []) : (b.setService c service).Sourced := by
  have grown := grown_setService ops
  refine ⟨fun e mem => (sourced.queue e mem).mono grown, fun e mem => (sourced.log e mem).mono grown,
    fun d => ?_, fun d small => ?_, fun d => ?_⟩
  · rw [services_setService]
    split
    · rename_i here
      exact here ▸ up
    · exact sourced.up d
  · intro msg mem
    obtain ⟨addressed, published⟩ : Addressed (b.services d).ops msg ∧ b.Published msg := by
      apply sourced.reached d small
      rw [services_setService] at mem
      split at mem
      · rename_i here
        exact here ▸ reached msg mem
      · exact mem
    exact ⟨addressed.mono (grown.ops d), published.mono grown⟩
  · rw [services_setService]
    split
    · exact silent
    · exact sourced.silent d

/-- A command joins the queue. -/
theorem push (sourced : b.Sourced) (asked : e.Asked b) :
    ({ b with queue := b.queue ++ [e] } : Bus).Sourced where
  queue e' mem := by
    rcases List.mem_append.mp mem with earlier | now
    · exact sourced.queue e' earlier
    · exact List.mem_singleton.mp now ▸ asked
  log := sourced.log
  up := sourced.up
  reached := sourced.reached
  silent := sourced.silent

/-- A client runs one of its functions. -/
theorem operation {op : HandleOp} (sourced : b.Sourced) (plain : op.Plain) :
    (b.setService c { b.services c with
      ops := op :: (b.services c).ops
      client := op.apply (b.services c).client
      up := (b.services c).up ++ op.frames (b.services c).client }).Sourced := by
  refine sourced.turn (fun _ mem => List.mem_cons_of_mem _ mem) (fun msg mem => ?_)
    (fun _ mem => mem) (sourced.silent c)
  rcases List.mem_append.mp mem with earlier | frame
  · exact (sourced.up c msg earlier).mono fun _ mem => List.mem_cons_of_mem _ mem
  · exact asked_handleFrame List.mem_cons_self plain frame

/-- The bridge takes a request. -/
theorem request {w : WsId} {stamp : Stamp} {asked : WsRequest} (sourced : b.Sourced) :
    ({ b with
      queue := b.queue ++ [.ws w (handleWsMessage w b.channels stamp asked)]
      channels := b.channels + 1
      requests := asked :: b.requests } : Bus).Sourced := by
  have grown : b.Grown { b with
      queue := b.queue ++ [.ws w (handleWsMessage w b.channels stamp asked)]
      channels := b.channels + 1
      requests := asked :: b.requests } :=
    ⟨fun _ _ mem => mem, fun _ mem => List.mem_cons_of_mem _ mem⟩
  refine ⟨fun e mem => ?_, fun e mem => (sourced.log e mem).mono grown, sourced.up,
    fun d small msg mem => ?_, sourced.silent⟩
  · rcases List.mem_append.mp mem with earlier | now
    · exact (sourced.queue e earlier).mono grown
    · rw [List.mem_singleton.mp now]
      exact ⟨w, b.channels, stamp, asked, List.mem_cons_self, rfl⟩
  · have reached := sourced.reached d small msg mem
    exact ⟨reached.1, reached.2.mono grown⟩

/-- The broker processes a command. -/
theorem broker {queue : List Event} (sourced : b.Sourced) (next : b.queue = e :: queue) :
    ({ b.deliver (e.step (tables b.log)).2 with queue, log := e :: b.log } : Bus).Sourced := by
  have asked : e.Asked b := sourced.queue e (next ▸ List.mem_cons_self)
  have same (d : ConnId) : ((b.deliver (e.step (tables b.log)).2).services d).ops =
      (b.services d).ops := by
    simp only [deliver]
    split <;> rfl
  have grown : b.Grown { b.deliver (e.step (tables b.log)).2 with queue, log := e :: b.log } :=
    ⟨fun d op mem => same d ▸ mem, fun _ mem => mem⟩
  refine ⟨fun e' mem => ?_, fun e' mem => ?_, fun d msg mem => ?_, fun d small msg mem => ?_,
    fun d => ?_⟩
  · exact (sourced.queue e' (next ▸ List.mem_cons_of_mem _ mem)).mono grown
  · rcases List.mem_cons.mp mem with rfl | earlier
    · exact asked.mono grown
    · exact (sourced.log e' earlier).mono grown
  · have before : msg ∈ (b.services d).up := by
      simp only [deliver] at mem
      split at mem <;> exact mem
    exact (sourced.up d msg before).mono (grown.ops d)
  · have reached : Addressed (b.services d).ops msg ∧ b.Published msg := by
      simp only [deliver] at mem
      split at mem
      · rw [← List.append_assoc] at mem
        rcases List.mem_append.mp mem with earlier | now
        · exact sourced.reached d small msg earlier
        · exact sent_asked small sourced.log asked (mem_sentTo.mp now)
      · exact sourced.reached d small msg mem
    exact ⟨reached.1.mono (grown.ops d), reached.2.mono grown⟩
  · simp only [deliver]
    split <;> exact sourced.silent d

end Sourced

variable {fromReader : List UInt8 → Option (List UInt8)} {move : Move}

/-- What a move adds to what has been asked for. -/
theorem asked_step (stepped : b.step fromReader move = some b') :
    (∀ c, (b'.services c).ops = move.ops c ++ (b.services c).ops) ∧
      b'.requests = move.requests ++ b.requests := by
  have turn (c : ConnId) (service : Service) (same : service.ops = (b.services c).ops) (d : ConnId) :
      ((b.setService c service).services d).ops = [] ++ (b.services d).ops := by
    rw [services_setService]
    split
    · rename_i here
      exact here ▸ same
    · rfl
  cases move with
  | accept c =>
    rw [step] at stepped
    split at stepped
    · cases stepped
    · obtain rfl := Option.some.inj stepped
      exact ⟨turn c { b.services c with connected := true } rfl, rfl⟩
  | op c op =>
    obtain rfl := Option.some.inj stepped
    refine ⟨fun d => ?_, rfl⟩
    rw [services_setService, Move.ops]
    split
    · rename_i here
      exact here ▸ rfl
    · rfl
  | read c =>
    rw [step] at stepped
    split at stepped
    · rename_i msg up connected frames
      obtain rfl := Option.some.inj stepped
      exact ⟨turn c { b.services c with up } rfl, rfl⟩
    · cases stepped
  | close c =>
    rw [step] at stepped
    split at stepped
    · obtain rfl := Option.some.inj stepped
      exact ⟨turn c { b.services c with connected := false } rfl, rfl⟩
    · cases stepped
  | request w stamp request =>
    obtain rfl := Option.some.inj stepped
    exact ⟨fun _ => rfl, rfl⟩
  | broker =>
    rw [step] at stepped
    split at stepped
    · obtain rfl := Option.some.inj stepped
      refine ⟨fun d => ?_, rfl⟩
      simp only [deliver]
      split <;> rfl
    · cases stepped
  | hear c =>
    rw [step] at stepped
    split at stepped
    · obtain rfl := Option.some.inj stepped
      exact ⟨turn c _ rfl, rfl⟩
    · cases stepped

theorem grown_step (stepped : b.step fromReader move = some b') : b.Grown b' := by
  obtain ⟨ops, requests⟩ := asked_step stepped
  exact ⟨fun c op mem => ops c ▸ List.mem_append_right _ mem,
    fun request mem => requests ▸ List.mem_append_right _ mem⟩

/-- No move breaks what is known, if control frames are written by the client's functions only. -/
theorem Sourced.step (sourced : b.Sourced) (stepped : b.step fromReader move = some b')
    (plain : ∀ c, ∀ op ∈ (b'.services c).ops, op.Plain) : b'.Sourced := by
  cases move with
  | accept c =>
    rw [Bus.step] at stepped
    split at stepped
    · cases stepped
    · obtain rfl := Option.some.inj stepped
      have turned : (b.setService c { b.services c with connected := true }).Sourced :=
        sourced.turn (fun _ mem => mem) (sourced.up c) (fun _ mem => mem) (sourced.silent c)
      exact ⟨turned.queue, List.forall_mem_cons.mpr ⟨trivial, turned.log⟩, turned.up, turned.reached,
        turned.silent⟩
  | op c op =>
    obtain rfl := Option.some.inj stepped
    refine sourced.operation (plain c op ?_)
    rw [services_setService, if_pos rfl]
    exact List.mem_cons_self
  | read c =>
    rw [Bus.step] at stepped
    split at stepped
    · rename_i msg up connected frames
      obtain rfl := Option.some.inj stepped
      have asked := sourced.up c
      rw [frames] at asked
      have turned : (b.setService c { b.services c with up }).Sourced :=
        sourced.turn (fun _ mem => mem) (fun msg mem => asked msg (List.mem_cons_of_mem _ mem))
          (fun _ mem => mem) (sourced.silent c)
      refine turned.push ⟨c, sender_handleFrame, ?_⟩
      rw [services_setService, if_pos rfl]
      exact asked msg List.mem_cons_self
    · cases stepped
  | close c =>
    rw [Bus.step] at stepped
    split at stepped
    · obtain rfl := Option.some.inj stepped
      have turned : (b.setService c { b.services c with connected := false }).Sourced :=
        sourced.turn (fun _ mem => mem) (sourced.up c) (fun _ mem => mem) (sourced.silent c)
      exact turned.push ⟨c, rfl, trivial⟩
    · cases stepped
  | request w stamp request =>
    obtain rfl := Option.some.inj stepped
    exact sourced.request
  | broker =>
    rw [Bus.step] at stepped
    split at stepped
    · rename_i next
      obtain rfl := Option.some.inj stepped
      exact sourced.broker next
    · cases stepped
  | hear c =>
    rw [Bus.step] at stepped
    split at stepped
    · rename_i msg down next
      obtain rfl := Option.some.inj stepped
      refine sourced.turn (fun _ mem => mem) (sourced.up c) (fun msg' mem => ?_) fun none => ?_
      · rw [next, List.append_cons]
        exact mem
      · exact absurd none (by simp)
    · cases stepped

/-! ### Runs -/

/-- What has been asked for in a run. -/
theorem asked_exec {run : List Move} (ran : exec fromReader run = some b) :
    (∀ c, (b.services c).ops = run.flatMap (·.ops c)) ∧ b.requests = run.flatMap (·.requests) := by
  induction run generalizing b with
  | nil =>
    obtain rfl := Option.some.inj ran
    exact ⟨fun _ => rfl, rfl⟩
  | cons move run ih =>
    obtain ⟨before, earlier, stepped⟩ := Option.bind_eq_some_iff.mp ran
    obtain ⟨ops, requests⟩ := asked_step stepped
    obtain ⟨opsBefore, requestsBefore⟩ := ih earlier
    refine ⟨fun c => ?_, ?_⟩
    · rw [ops, opsBefore, List.flatMap_cons]
    · rw [requests, requestsBefore, List.flatMap_cons]

theorem sourced_exec {run : List Move} (ran : exec fromReader run = some b)
    (plain : ∀ c, ∀ op ∈ (b.services c).ops, op.Plain) : b.Sourced := by
  induction run generalizing b with
  | nil =>
    obtain rfl := Option.some.inj ran
    refine ⟨fun e mem => ?_, fun e mem => ?_, fun c msg mem => ?_, fun c _ msg mem => ?_, fun _ _ => rfl⟩
    · cases mem
    · cases mem
    · cases mem
    · cases mem
  | cons move run ih =>
    obtain ⟨before, earlier, stepped⟩ := Option.bind_eq_some_iff.mp ran
    have grown := grown_step stepped
    exact (ih earlier fun c op mem => plain c op (grown.ops c op mem)).step stepped plain

end Bus

end Moves

/-! ### Ordinary messages -/

/-- The text does not begin as a JSON text of a string does. -/
def Unquoted (s : String) : Prop := s.toList.head? ≠ some '"'

/-- What is published has an ordinary method and destination, and what is called an ordinary
method. -/
def HandleOp.Unquoted : HandleOp → Prop
  | .publish msg => Stardust.Unquoted msg.method ∧ Stardust.Unquoted msg.dst
  | .call _ method _ _ => Stardust.Unquoted method
  | _ => True

def WsRequest.Unquoted : WsRequest → Prop
  | .publish method _ => Stardust.Unquoted method
  | _ => True

theorem not_unquoted_quoted (s : String) : ¬ Unquoted (quoted s) := by
  rw [Unquoted, toList_quoted]
  exact fun ordinary => ordinary rfl

theorem HandleOp.Unquoted.frame {op : HandleOp} {client : Client} {msg : Message}
    (ordinary : op.Unquoted) (frame : msg ∈ op.frames client) :
    Stardust.Unquoted msg.method ∧ Stardust.Unquoted msg.dst := by
  have control : Stardust.Unquoted "__stardust.register" ∧ Stardust.Unquoted "__stardust.subscribe" ∧
      Stardust.Unquoted "__stardust.unsubscribe" ∧ Stardust.Unquoted "" := by
    simp [Stardust.Unquoted]
  cases op with
  | clone => cases frame
  | timeout id => cases frame
  | register stamp name =>
    rw [List.mem_singleton.mp frame]
    exact ⟨control.1, control.2.2.2⟩
  | subscribe stamp topic rx =>
    rw [List.mem_singleton.mp frame]
    exact ⟨control.2.1, control.2.2.2⟩
  | unsubscribe stamp topic =>
    rw [List.mem_singleton.mp frame]
    exact ⟨control.2.2.1, control.2.2.2⟩
  | drop stamps =>
    obtain ⟨topic, -, rfl⟩ := List.mem_map.mp frame
    exact ⟨control.2.2.1, control.2.2.2⟩
  | publish published =>
    rw [List.mem_singleton.mp frame]
    exact ordinary
  | call stamp method params reply =>
    rw [List.mem_singleton.mp frame]
    exact ⟨ordinary, control.2.2.2⟩

/-- What addresses a service is not ordinary. -/
theorem not_addressed {b : Bus} {ops : List HandleOp} {msg : Message} (published : b.Published msg)
    (services : ∀ c, ∀ op ∈ (b.services c).ops, op.Unquoted)
    (requests : ∀ request ∈ b.requests, request.Unquoted) : ¬ Addressed ops msg := by
  have ordinary : Unquoted msg.method ∧ Unquoted msg.dst := by
    rcases published with ⟨c, op, mem, client, frame⟩ | ⟨stamp, method, params, mem, rfl⟩
    · exact (services c op mem).frame frame
    · exact ⟨requests _ mem, by simp [Unquoted, wsMessage, Message.new, Message.withSrc,
        Message.paramsRaw]⟩
  rintro (⟨stamp, name, -, same⟩ | ⟨stamp, topic, rx, -, same⟩)
  · exact not_unquoted_quoted name (same ▸ ordinary.2)
  · exact not_unquoted_quoted topic (same ▸ ordinary.1)

/-- **What services hear.** In every run of the bus in which control frames are written by the
functions of the client only, a message that reaches one of the first 100000 connections has the JSON
text of one of its service's names for its destination, or that of one of its topics for its method.
While no message is published or called with a method or a destination that begins as such a text
does, no service hears anything, whatever it has subscribed to: neither a message nor a response is
handed on. -/
theorem services_hear (fromReader : List UInt8 → Option (List UInt8)) (run : List Move) {b : Bus}
    (ran : Bus.exec fromReader run = some b) (plain : ∀ c op, .op c op ∈ run → op.Plain) :
    (∀ c < 100000, ∀ msg ∈ (b.services c).heard ++ (b.services c).down,
      Addressed (b.services c).ops msg ∧ b.Published msg) ∧
    ((∀ c op, .op c op ∈ run → op.Unquoted) →
      (∀ w stamp request, .request w stamp request ∈ run → request.Unquoted) →
      ∀ c < 100000, (b.services c).heard = [] ∧ (b.services c).down = [] ∧
        (b.services c).handed = []) := by
  obtain ⟨ops, asked⟩ := Bus.asked_exec ran
  have moved {c : ConnId} {op : HandleOp} (mem : op ∈ (b.services c).ops) : .op c op ∈ run := by
    rw [ops] at mem
    obtain ⟨move, inRun, mem⟩ := List.mem_flatMap.mp mem
    exact Move.mem_ops mem ▸ inRun
  have sourced := Bus.sourced_exec ran fun c op mem => plain c op (moved mem)
  refine ⟨sourced.reached, fun services requests c small => ?_⟩
  have none : (b.services c).heard ++ (b.services c).down = [] := by
    refine List.eq_nil_iff_forall_not_mem.mpr fun msg mem => ?_
    obtain ⟨addressed, published⟩ := sourced.reached c small msg mem
    refine not_addressed published (fun c op mem => services c op (moved mem)) (fun request mem => ?_)
      addressed
    rw [asked] at mem
    obtain ⟨move, inRun, mem⟩ := List.mem_flatMap.mp mem
    obtain ⟨w, stamp, rfl⟩ := Move.mem_requests mem
    exact requests w stamp request inRun
  obtain ⟨heard, down⟩ := List.append_eq_nil_iff.mp none
  exact ⟨heard, down, sourced.silent c heard⟩

/-- A daemon registers and subscribes to its commands; then Luna sends it one. -/
def mutedRun : List Move :=
  [.broker, .request 0 ⟨3, 0⟩ (.publish "audio.command.mute" []), .broker, .broker, .read 1, .read 1,
    .op 1 (.subscribe ⟨2, 0⟩ "audio.command.*" 0), .op 1 (.register ⟨1, 0⟩ "audiod"), .accept 1]

theorem services_hear_muted : ∃ b, Bus.exec some mutedRun = some b ∧
    (b.services 1).heard = [] ∧ (b.services 1).down = [] ∧ (b.services 1).handed = [] := by
  obtain ⟨b, ran⟩ : ∃ b, Bus.exec some mutedRun = some b := ⟨_, rfl⟩
  have ops {c : ConnId} {op : HandleOp} (mem : .op c op ∈ mutedRun) :
      op = .subscribe ⟨2, 0⟩ "audio.command.*" 0 ∨ op = .register ⟨1, 0⟩ "audiod" := by
    simp only [mutedRun, List.mem_cons, Move.op.injEq, reduceCtorEq, List.not_mem_nil, false_or,
      or_false] at mem
    exact mem.imp And.right And.right
  have hear := services_hear some mutedRun ran fun c op mem => by
    rcases ops mem with rfl | rfl
    · trivial
    · trivial
  refine ⟨b, ran, hear.2 (fun c op mem => ?_) (fun w stamp request mem => ?_) 1 (by decide)⟩
  · rcases ops mem with rfl | rfl
    · trivial
    · trivial
  · simp only [mutedRun, List.mem_cons, Move.request.injEq, reduceCtorEq, List.not_mem_nil, false_or,
      or_false] at mem
    obtain ⟨-, -, rfl⟩ := mem
    simp [WsRequest.Unquoted, Unquoted]

end Stardust
