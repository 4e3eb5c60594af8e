import UosTv.Js.Map
import UosTv.Js.Text
import UosTv.Lib.Past
import UosTv.Serde.Json

/-!
The bus client of the Luna shell (`bus.js`).

A page holds the client, the sockets it has created and the timers it has set. Sockets are
known by their number; the handlers of an old socket stay in place when another takes its
place. What `connect` returns is left out, its promise being awaited only once, before the
first subscription.

A history lists what has happened to the page, newest first: calls of the client, and what
the browser does. `Admissible` says what the browser can do: a socket opens once, while it
connects, and closes once.
-/

namespace Luna

open Js SerdeJson

/-- `readyState` of a `WebSocket`. -/
inductive ReadyState where
  | connecting
  | opened
  | closing
  | closed
deriving DecidableEq, Repr

/-- The requests of the client (`WsRequest`). -/
inductive Frame where
  | subscribe (topic : Str)
  | unsubscribe (topic : Str)
  | publish (method : Str) (params : Value)
  | call (method : Str) (params : Value) (id : Str)

/-- A message of the bridge (`WsEvent`). -/
inductive Incoming where
  | event (method : Str) (params : Value)
  | response (id : Str) (status : Str) (data : Value)
  | error (id : Option Str) (message : Str)
  | connected (service version : Str)

/-- A `WebSocket`, with the frames the bridge gets from it, newest first. -/
structure Socket where
  readyState : ReadyState
  sent : List Frame

namespace Socket

/-- `new WebSocket(url)`. -/
def new : Socket := ⟨.connecting, []⟩

/-- `WebSocket.prototype.send`: throws while the socket connects, and drops the frame when it
closes or has closed. -/
def send (socket : Socket) (frame : Frame) : Socket :=
  match socket.readyState with
  | .opened => { socket with sent := frame :: socket.sent }
  | _ => socket

def enter (socket : Socket) (readyState : ReadyState) : Socket := { socket with readyState }

end Socket

/-- `StardustClient`. A call is known by the number of its promise. -/
structure StardustClient (Callback : Type) where
  ws : Option Nat
  subscribers : Map Str (List Callback)
  pendingCalls : Map Str Nat
  connected : Bool
  reconnectDelay : Nat

def maxReconnectDelay : Nat := 30000

/-- What `_dispatch` calls. -/
inductive Invocation (Callback : Type) where
  | callback (cb : Callback) (method : Str) (params : Value)
  | resolve (promise : Nat) (data : Value)

namespace StardustClient

variable {Callback : Type} (client : StardustClient Callback)

/-- The constructor. -/
def new : StardustClient Callback where
  ws := none
  subscribers := ∅
  pendingCalls := ∅
  connected := false
  reconnectDelay := 1000

/-- `_matchTopic`. -/
def matchTopic (pattern topic : Str) : Bool :=
  if pattern = topic then true
  else if endsWith pattern (encode ".*") then startsWith topic (dropEnd pattern 2)
  else false

/-- `_setupFallback`. -/
def setupFallback : StardustClient Callback := { client with connected := true }

/-- `_dispatch`. What a callback throws is ignored. -/
def dispatch : Incoming → StardustClient Callback × List (Invocation Callback)
  | .event method params =>
    (client, client.subscribers.entries.flatMap fun entry =>
      if matchTopic entry.1 method then entry.2.map (.callback · method params) else [])
  | .response id _ data =>
    match client.pendingCalls.get id with
    | some promise =>
      ({ client with pendingCalls := client.pendingCalls.delete id }, [.resolve promise data])
    | none => (client, [])
  | .error (some id) _ => ({ client with pendingCalls := client.pendingCalls.delete id }, [])
  | .error none _ => (client, [])
  | .connected _ _ => (client, [])

/-- The table after `subscribe`. -/
def addSubscriber (pattern : Str) (callback : Callback) : StardustClient Callback :=
  { client with
    subscribers := client.subscribers.set pattern
      ((client.subscribers.get pattern).getD [] ++ [callback]) }

theorem subscribers_dispatch (msg : Incoming) :
    (client.dispatch msg).1.subscribers = client.subscribers := by
  unfold dispatch
  split
  case h_2 => split <;> rfl
  all_goals rfl

theorem ws_dispatch (msg : Incoming) : (client.dispatch msg).1.ws = client.ws := by
  unfold dispatch
  split
  case h_2 => split <;> rfl
  all_goals rfl

theorem connected_dispatch (msg : Incoming) : (client.dispatch msg).1.connected = client.connected := by
  unfold dispatch
  split
  case h_2 => split <;> rfl
  all_goals rfl

end StardustClient

/-- The timers of `connect` and of `_reconnect`. -/
inductive Timer where
  | fallback
  | reconnect (delay : Nat)
deriving DecidableEq, Repr

structure Page (Callback : Type) where
  client : StardustClient Callback
  sockets : List Socket
  timers : List Timer

/-- Calls of the client, and what the browser does. `available` tells whether the constructor
of `WebSocket` returns, and `closing` that a socket begins to close. -/
inductive Event (Callback : Type) where
  | connect (available : Bool)
  | subscribe (pattern : Str) (callback : Callback)
  | unsubscribe (pattern : Str)
  | publish (method : Str) (params : Value)
  | call (method : Str) (params : Value) (id : Str) (promise : Nat)
  | opens (socket : Nat)
  | message (socket : Nat) (msg : Incoming)
  | closing (socket : Nat)
  | errors (socket : Nat)
  | closes (socket : Nat)
  | timeout
  | reconnect (delay : Nat) (available : Bool)
  | callTimeout (id : Str)

namespace Page

variable {Callback : Type} (page : Page Callback)

/-- The page before `connect` is called. -/
def new : Page Callback := ⟨.new, [], []⟩

/-- `connect`. -/
def connect (available : Bool) : Page Callback :=
  if available then
    { client := { page.client with ws := some page.sockets.length }
      sockets := page.sockets ++ [Socket.new]
      timers := page.timers ++ [.fallback] }
  else { page with client := page.client.setupFallback }

/-- `this.ws.send(frame)`, when `this.ws && this.connected`. -/
def send (frame : Frame) : Page Callback :=
  match page.client.ws with
  | none => page
  | some i =>
    if page.client.connected then
      { page with sockets := page.sockets.modify i fun socket => socket.send frame }
    else page

/-- `subscribe`. -/
def subscribe (pattern : Str) (callback : Callback) : Page Callback :=
  { page with client := page.client.addSubscriber pattern callback }.send (.subscribe pattern)

/-- `unsubscribe`. -/
def unsubscribe (pattern : Str) : Page Callback :=
  { page with
    client := { page.client with subscribers := page.client.subscribers.delete pattern } }.send
      (.unsubscribe pattern)

/-- `publish`. Without a connection it only writes to the console. -/
def publish (method : Str) (params : Value) : Page Callback := page.send (.publish method params)

/-- `call`. Without a connection it returns at once. -/
def call (method : Str) (params : Value) (id : Str) (promise : Nat) : Page Callback :=
  if page.client.ws.isSome && page.client.connected then
    { page with
      client := { page.client with pendingCalls := page.client.pendingCalls.set id promise } }.send
        (.call method params id)
  else page

/-- `onopen`. -/
def onopen : Page Callback :=
  { page with client := { page.client with connected := true, reconnectDelay := 1000 } }

/-- `onclose`, with `_reconnect`. -/
def onclose : Page Callback :=
  { page with
    client := { page.client with connected := false }
    timers := page.timers ++ [.reconnect page.client.reconnectDelay] }

/-- `onerror`. -/
def onerror : Page Callback := { page with client := page.client.setupFallback }

/-- The two seconds of `connect` are over. -/
def onTimeout : Page Callback :=
  if page.client.connected then page else { page with client := page.client.setupFallback }

/-- The timer of `_reconnect` fires. -/
def onReconnect (available : Bool) : Page Callback :=
  let page := page.connect available
  { page with
    client := { page.client with
      reconnectDelay := min (page.client.reconnectDelay * 2) maxReconnectDelay } }

/-- A socket changes its state. -/
def enter (i : Nat) (readyState : ReadyState) : Page Callback :=
  { page with sockets := page.sockets.modify i fun socket => socket.enter readyState }

def step (page : Page Callback) : Event Callback → Page Callback
  | .connect available => page.connect available
  | .subscribe pattern callback => page.subscribe pattern callback
  | .unsubscribe pattern => page.unsubscribe pattern
  | .publish method params => page.publish method params
  | .call method params id promise => page.call method params id promise
  | .opens i => (page.enter i .opened).onopen
  | .message _ msg => { page with client := (page.client.dispatch msg).1 }
  | .closing i => page.enter i .closing
  -- A socket errs as it closes, just before its close is told.
  | .errors i => (page.enter i .closing).onerror
  | .closes i => (page.enter i .closed).onclose
  | .timeout => { page with timers := page.timers.erase .fallback }.onTimeout
  | .reconnect delay available =>
    { page with timers := page.timers.erase (.reconnect delay) }.onReconnect available
  | .callTimeout id =>
    { page with
      client := { page.client with pendingCalls := page.client.pendingCalls.delete id } }

/-- The socket is there and its state is as said. -/
def Is (i : Nat) (p : ReadyState → Prop) : Prop :=
  ∃ socket, page.sockets[i]? = some socket ∧ p socket.readyState

/-- What the browser can do next. The client can be called at any time. -/
def Admissible : Event Callback → Prop
  | .opens i => page.Is i (· = .connecting)
  | .message i _ => page.Is i (· = .opened)
  | .closing i => page.Is i fun state => state = .connecting ∨ state = .opened
  | .errors i => page.Is i (· ≠ .closed)
  | .closes i => page.Is i (· ≠ .closed)
  | .timeout => .fallback ∈ page.timers
  | .reconnect delay _ => .reconnect delay ∈ page.timers
  | _ => True

/-- `this.ws`. -/
def current : Option Socket := page.client.ws.bind fun i => page.sockets[i]?

end Page

/-- Events, newest first. -/
abbrev History (Callback : Type) := List (Event Callback)

variable {Callback : Type}

/-- The page after a history. -/
def pageOf : History Callback → Page Callback
  | [] => .new
  | e :: h => (pageOf h).step e

/-- Each event was possible when it happened. -/
def Valid : History Callback → Prop
  | [] => True
  | e :: h => (pageOf h).Admissible e ∧ Valid h

theorem Valid.admissible {e : Event Callback} {g h : History Callback} (valid : Valid h)
    (suffix : e :: g <:+ h) : (pageOf g).Admissible e := by
  induction h with
  | nil => cases List.suffix_nil.mp suffix
  | cons x h ih =>
    rcases List.suffix_cons_iff.mp suffix with same | older
    · obtain ⟨rfl, rfl⟩ := List.cons.inj same
      exact valid.1
    · exact ih valid.2 older

end Luna
