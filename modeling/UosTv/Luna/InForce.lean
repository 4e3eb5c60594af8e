import UosTv.Luna.Bus

/-!
Subscriptions of the shell and what the bridge knows of them.

A subscription is sent when it is made, on an open socket, and never again: `onopen` sends
nothing. So the bridge knows the table of the client throughout a history iff every socket
opens when the table is empty, and every pattern is subscribed to once (`in_force_iff`).
-/

namespace Luna

open Js Past SerdeJson

variable {Callback : Type} {page : Page Callback} {socket : Socket} {h g : History Callback}
  {topic : Str}

/-- How often the bridge has been asked for a topic since it was last told to leave it. -/
def asked (topic : Str) : List Frame → Nat
  | [] => 0
  | .subscribe t :: older => if t = topic then asked topic older + 1 else asked topic older
  | .unsubscribe t :: older => if t = topic then 0 else asked topic older
  | _ :: older => asked topic older

section Send

variable {frame : Frame}

theorem send_of_opened (opened : socket.readyState = .opened) :
    socket.send frame = { socket with sent := frame :: socket.sent } := by
  unfold Socket.send
  rw [opened]

theorem readyState_send :
    (socket.send frame).readyState = socket.readyState := by
  unfold Socket.send
  split <;> rfl

end Send

namespace Page

/-- When the socket is open, the bridge has been asked once for every pattern of the table, and
for nothing else. -/
def InForce (page : Page Callback) : Prop :=
  ∀ socket, page.current = some socket → socket.readyState = .opened →
    ∀ topic, asked topic socket.sent = if topic ∈ page.client.subscribers then 1 else 0

/-- What an event needs in order to keep the subscriptions in force. A client that is called
while its socket is open takes itself to be connected, unless an older socket has closed since. -/
def Keeps (page : Page Callback) : Event Callback → Prop
  | .opens i => page.client.ws = some i → ∀ topic, topic ∉ page.client.subscribers
  | .subscribe pattern _ => (∃ socket, page.current = some socket ∧ socket.readyState = .opened) →
      (page.client.connected = true ↔ pattern ∉ page.client.subscribers)
  | .unsubscribe pattern => (∃ socket, page.current = some socket ∧ socket.readyState = .opened) →
      (page.client.connected = true ∨ pattern ∉ page.client.subscribers)
  | _ => True

/-! ### The current socket -/

section Current

variable {page : Page Callback} {page' : Page Callback} {frame : Frame} {i : Nat}

theorem current_modify (f : Socket → Socket) :
    { page with sockets := page.sockets.modify i f }.current =
      if page.client.ws = some i then page.current.map f else page.current := by
  unfold current
  cases page.client.ws with
  | none => rfl
  | some j =>
    change (page.sockets.modify i f)[j]? = _
    rw [List.getElem?_modify]
    by_cases same : j = i
    · simp [same]
    · simp [same, Ne.symm same]

theorem client_send : (page.send frame).client = page.client := by
  unfold send
  split
  · rfl
  · split_ifs <;> rfl

theorem current_send : (page.send frame).current =
    if page.client.connected then page.current.map (·.send frame) else page.current := by
  unfold send
  split
  · rename_i none
    simp [current, none]
  · rename_i j some
    split_ifs
    · rw [current_modify, if_pos some]
    · rfl

theorem inForce_congr (current : page'.current = page.current)
    (table : page'.client.subscribers = page.client.subscribers) :
    page'.InForce ↔ page.InForce := by
  unfold InForce
  rw [current, table]

theorem inForce_of_not_opened
    (shut : ∀ socket, page.current = some socket → socket.readyState ≠ .opened) : page.InForce :=
  fun socket here opened => absurd opened (shut socket here)

/-- What a frame does when the socket is open. -/
theorem inForce_send : (page.send frame).InForce ↔
    ∀ socket, page.current = some socket → socket.readyState = .opened →
      ∀ topic, asked topic (if page.client.connected then frame :: socket.sent else socket.sent) =
        if topic ∈ page.client.subscribers then 1 else 0 := by
  unfold InForce
  rw [client_send, current_send]
  split_ifs with connected
  · constructor
    · intro inForce socket here opened
      have after := inForce (socket.send frame) (by rw [here]; rfl)
      rw [readyState_send, send_of_opened opened] at after
      exact after opened
    · intro all socket' here' opened
      obtain ⟨socket, here, rfl⟩ := Option.map_eq_some_iff.mp here'
      rw [readyState_send] at opened
      rw [send_of_opened opened]
      exact all socket here opened
  · rfl

end Current

/-! ### Sockets that connect -/

/-- Nothing has been sent on a socket that connects. -/
def Fresh (page : Page Callback) : Prop :=
  ∀ socket ∈ page.sockets, socket.readyState = .connecting → socket.sent = []

theorem Fresh.modify {f : Socket → Socket} {i : Nat} (fresh : Fresh page)
    (keeps : ∀ socket, (f socket).readyState = .connecting →
      socket.readyState = .connecting ∧ (f socket).sent = socket.sent) :
    Fresh { page with sockets := page.sockets.modify i f } := by
  intro socket' mem connects
  obtain ⟨j, there⟩ := List.mem_iff_getElem?.mp mem
  rw [List.getElem?_modify] at there
  obtain ⟨socket, here, rfl⟩ := Option.map_eq_some_iff.mp there
  have before := fresh socket (List.mem_of_getElem? here)
  split_ifs at connects ⊢ with same
  · obtain ⟨connected, sent⟩ := keeps socket connects
    rw [sent]
    exact before connected
  · exact before connects

theorem Fresh.enter {readyState : ReadyState} {i : Nat} (fresh : Fresh page)
    (moves : readyState ≠ .connecting) : Fresh (page.enter i readyState) :=
  fresh.modify fun _ connects => absurd connects moves

theorem Fresh.send {frame : Frame} (fresh : Fresh page) : Fresh (page.send frame) := by
  unfold Page.send
  split
  · exact fresh
  · split_ifs
    · refine fresh.modify fun socket connects => ?_
      rw [readyState_send] at connects
      refine ⟨connects, ?_⟩
      rw [Socket.send, connects]
    · exact fresh

theorem Fresh.connect {available : Bool} (fresh : Fresh page) : Fresh (page.connect available) := by
  unfold Page.connect
  split_ifs
  · intro socket mem
    rcases List.mem_append.mp mem with old | new
    · exact fresh socket old
    · rw [List.mem_singleton.mp new]
      exact fun _ => rfl
  · exact fresh

theorem Fresh.step {e : Event Callback} (fresh : Fresh page) : Fresh (page.step e) := by
  cases e with
  | connect available => exact fresh.connect
  | subscribe pattern callback =>
    apply Fresh.send
    exact fresh
  | unsubscribe pattern =>
    apply Fresh.send
    exact fresh
  | publish method params => exact fresh.send
  | call method params id promise =>
    change Fresh (page.call method params id promise)
    unfold call
    split_ifs
    · apply Fresh.send
      exact fresh
    · exact fresh
  | opens i => exact fresh.enter (by decide)
  | closing i => exact fresh.enter (by decide)
  | errors i => exact fresh.enter (by decide)
  | closes i => exact fresh.enter (by decide)
  | timeout =>
    change Fresh (onTimeout _)
    unfold onTimeout
    split_ifs
    · exact fresh
    · exact fresh
  | reconnect delay available =>
    apply Fresh.connect
    exact fresh
  | _ => exact fresh

/-! ### One event -/

section Step

variable {i : Nat} {pattern : Str} {callback : Callback}

theorem InForce.connect {available : Bool} (inForce : page.InForce) :
    (page.connect available).InForce := by
  unfold Page.connect
  split_ifs
  · refine inForce_of_not_opened fun socket here opened => ?_
    change (page.sockets ++ [Socket.new])[page.sockets.length]? = some socket at here
    rw [List.getElem?_concat_length] at here
    cases here
    cases opened
  · exact inForce

theorem inForce_enter_of_ne {readyState : ReadyState} (other : page.client.ws ≠ some i) :
    (page.enter i readyState).InForce ↔ page.InForce := by
  refine inForce_congr ?_ rfl
  rw [enter, current_modify, if_neg other]

/-- A socket that closes. -/
theorem InForce.enter {readyState : ReadyState} (shut : readyState ≠ .opened)
    (inForce : page.InForce) : (page.enter i readyState).InForce := by
  by_cases here : page.client.ws = some i
  · refine inForce_of_not_opened fun socket current opened => ?_
    rw [Page.enter, current_modify, if_pos here] at current
    obtain ⟨old, -, rfl⟩ := Option.map_eq_some_iff.mp current
    exact shut opened
  · exact (inForce_enter_of_ne here).mpr inForce

/-- The bridge knows nothing yet when a socket opens. -/
theorem inForce_opens (fresh : page.Fresh) (connecting : page.Is i (· = .connecting))
    (inForce : page.InForce) :
    (page.enter i .opened).InForce ↔ page.Keeps (.opens i : Event Callback) := by
  by_cases here : page.client.ws = some i
  · obtain ⟨socket, there, connects⟩ := connecting
    have current : page.current = some socket := by
      rw [Page.current, here]
      exact there
    have sent := fresh socket (List.mem_of_getElem? there) connects
    have opened : (page.enter i .opened).current = some (socket.enter .opened) := by
      rw [enter, current_modify, if_pos here, current]
      rfl
    constructor
    · intro after _ topic mem
      have once : asked topic socket.sent = if topic ∈ page.client.subscribers then 1 else 0 :=
        after _ opened rfl topic
      rw [sent, if_pos mem] at once
      cases once
    · intro empty socket' current' _ topic
      obtain rfl := Option.some.inj (opened.symm.trans current')
      rw [Socket.enter, sent]
      exact (if_neg (empty here topic)).symm
  · exact iff_of_true ((inForce_enter_of_ne here).mpr inForce) fun ws => absurd ws here

theorem inForce_subscribe (inForce : page.InForce) :
    (page.subscribe pattern callback).InForce ↔ page.Keeps (.subscribe pattern callback) := by
  have table : ∀ topic, topic ∈ (page.client.addSubscriber pattern callback).subscribers ↔
      topic = pattern ∨ topic ∈ page.client.subscribers := fun _ => Map.mem_set
  rw [subscribe, inForce_send]
  constructor
  · rintro after ⟨socket, here, opened⟩
    have now := after socket here opened pattern
    have before := inForce socket here opened pattern
    rw [if_pos ((table pattern).mpr (.inl rfl))] at now
    change asked pattern (if page.client.connected then _ else _) = 1 at now
    by_cases connected : page.client.connected = true
    · rw [if_pos connected, asked, if_pos rfl, before] at now
      split_ifs at now with old
      · cases now
      · exact iff_of_true connected old
    · rw [if_neg connected, before] at now
      split_ifs at now with old
      exact iff_of_false connected (not_not.mpr old)
  · intro keeps socket here opened topic
    have exactly := keeps ⟨socket, here, opened⟩
    have before := inForce socket here opened topic
    change asked topic (if page.client.connected then _ else _) = _
    simp only [table]
    by_cases connected : page.client.connected = true
    · rw [if_pos connected, asked]
      by_cases same : pattern = topic
      · obtain rfl := same
        rw [if_pos rfl, before, if_neg (exactly.mp connected), if_pos (.inl rfl)]
      · simp [same, Ne.symm same, before]
    · rw [if_neg connected, before]
      have old : pattern ∈ page.client.subscribers := not_not.mp (mt exactly.mpr connected)
      have same : topic = pattern ∨ topic ∈ page.client.subscribers ↔
          topic ∈ page.client.subscribers := or_iff_right_of_imp fun same => same ▸ old
      simp only [same]

theorem inForce_unsubscribe (inForce : page.InForce) :
    (page.unsubscribe pattern).InForce ↔ page.Keeps (.unsubscribe pattern : Event Callback) := by
  have table : ∀ topic, topic ∈ page.client.subscribers.delete pattern ↔
      topic ≠ pattern ∧ topic ∈ page.client.subscribers := fun _ => Map.mem_delete
  rw [unsubscribe, inForce_send]
  constructor
  · rintro after ⟨socket, here, opened⟩
    have now := after socket here opened pattern
    have before := inForce socket here opened pattern
    by_cases connected : page.client.connected = true
    · exact .inl connected
    · change asked pattern (if page.client.connected then _ else _) = ite (_ ∈ _) _ _ at now
      rw [if_neg connected, before] at now
      refine .inr fun old => ?_
      rw [if_pos old, if_neg fun mem => ((table pattern).mp mem).1 rfl] at now
      cases now
  · intro keeps socket here opened topic
    have before := inForce socket here opened topic
    change asked topic (if page.client.connected then _ else _) = _
    simp only [table]
    by_cases connected : page.client.connected = true
    · rw [if_pos connected, asked]
      by_cases same : pattern = topic
      · simp [same]
      · simp [same, Ne.symm same, before]
    · rw [if_neg connected, before]
      have new : pattern ∉ page.client.subscribers :=
        (keeps ⟨socket, here, opened⟩).resolve_left connected
      have same : topic ≠ pattern ∧ topic ∈ page.client.subscribers ↔
          topic ∈ page.client.subscribers :=
        and_iff_right_of_imp fun mem same => new (same ▸ mem)
      simp only [same]

/-- A frame that is neither. -/
theorem InForce.send {frame : Frame} (inForce : page.InForce)
    (other : ∀ topic older, asked topic (frame :: older) = asked topic older) :
    (page.send frame).InForce := by
  refine inForce_send.mpr fun socket here opened topic => ?_
  have before := inForce socket here opened topic
  by_cases connected : page.client.connected = true
  · rw [if_pos connected, other, before]
  · rw [if_neg connected, before]

/-- An event keeps the subscriptions in force exactly when `Keeps` says so. -/
theorem inForce_step {e : Event Callback} (fresh : page.Fresh) (possible : page.Admissible e)
    (inForce : page.InForce) : (page.step e).InForce ↔ page.Keeps e := by
  cases e with
  | connect available => exact iff_of_true inForce.connect trivial
  | subscribe pattern callback => exact inForce_subscribe inForce
  | unsubscribe pattern => exact inForce_unsubscribe inForce
  | publish method params => exact iff_of_true (inForce.send fun _ _ => rfl) trivial
  | call method params id promise =>
    refine iff_of_true ?_ trivial
    change (page.call method params id promise).InForce
    unfold call
    split_ifs
    · exact InForce.send inForce fun _ _ => rfl
    · exact inForce
  | opens i => exact inForce_opens fresh possible inForce
  | message i msg =>
    refine iff_of_true ((inForce_congr ?_ (page.client.subscribers_dispatch msg)).mpr inForce) trivial
    change ((page.client.dispatch msg).1.ws.bind _) = _
    rw [page.client.ws_dispatch]
    rfl
  | closing i => exact iff_of_true (inForce.enter (by decide)) trivial
  | errors i => exact iff_of_true (inForce.enter (by decide)) trivial
  | closes i => exact iff_of_true (inForce.enter (by decide)) trivial
  | timeout =>
    refine iff_of_true ?_ trivial
    change (onTimeout _).InForce
    unfold onTimeout
    split_ifs
    · exact inForce
    · exact inForce
  | reconnect delay available => exact iff_of_true (InForce.connect inForce) trivial
  | callTimeout id => exact iff_of_true inForce trivial

end Step

end Page

theorem fresh_pageOf (h : History Callback) : (pageOf h).Fresh := by
  induction h with
  | nil => exact fun socket mem => absurd mem List.not_mem_nil
  | cons e h ih => exact ih.step

theorem inForce_new : (Page.new : Page Callback).InForce := by
  rintro _ ⟨⟩

/-- In a history the bridge knows exactly the table whenever the socket is open iff every event
has kept it so: each socket has opened when nothing was subscribed to, and no pattern has been
subscribed to twice. -/
theorem in_force_iff (valid : Valid h) :
    (∀ g, g <:+ h → (pageOf g).InForce) ↔ ∀ e g, e :: g <:+ h → (pageOf g).Keeps e := by
  refine always_iff inForce_new fun e g suffix inForce => ?_
  exact Page.inForce_step (fresh_pageOf g) (valid.admissible suffix) inForce

/-- The shell subscribes to the audio status, on an open socket. -/
def subscribed : History Unit :=
  [.subscribe (encode "audio.status") (), .opens 0, .connect true]

theorem in_force_iff_subscribed :
    (pageOf subscribed).InForce ∧ ∃ socket, (pageOf subscribed).current = some socket ∧
      socket.readyState = .opened ∧ asked (encode "audio.status") socket.sent = 1 := by
  have valid : Valid subscribed := ⟨trivial, ⟨.new, rfl, rfl⟩, trivial, trivial⟩
  refine ⟨(in_force_iff valid).mpr ?_ subscribed (List.suffix_refl _), _, rfl, rfl, rfl⟩
  refine forall_moments_cons.mpr ⟨fun _ => by decide, ?_⟩
  refine forall_moments_cons.mpr ⟨fun _ _ => List.not_mem_nil, ?_⟩
  exact forall_moments_cons.mpr ⟨trivial, forall_moments_nil⟩

/-- The connection is lost, and made again. -/
def reconnected : History Unit :=
  [.opens 1, .reconnect 1000 true, .closes 0] ++ subscribed

/-- The bridge is not asked again. -/
theorem not_asked_again :
    Valid reconnected ∧
      (∃ socket, (pageOf reconnected).current = some socket ∧ socket.readyState = .opened ∧
        encode "audio.status" ∈ (pageOf reconnected).client.subscribers ∧
        asked (encode "audio.status") socket.sent = 0) ∧
      ¬ (pageOf reconnected).InForce := by
  refine ⟨⟨⟨.new, rfl, rfl⟩, ?_, ⟨_, rfl, ?_⟩, trivial, ⟨.new, rfl, rfl⟩, trivial, trivial⟩,
    ⟨_, rfl, rfl, by decide, rfl⟩, fun inForce => ?_⟩
  · exact List.mem_cons_of_mem _ List.mem_cons_self
  · decide
  · have once := inForce _ rfl rfl (encode "audio.status")
    rw [if_pos (by decide)] at once
    cases once

end Luna
