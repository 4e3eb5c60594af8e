import UosTv.Luna.InForce

/-!
The flag of the client and the state of its socket.

`connected` is set by every socket that opens, and by the fallback when nothing has opened; it
is cleared when a socket has closed. None of this looks at the current socket, so a client that
takes itself to be connected may send on a socket that still connects or no longer is open. It
never does iff every event leaves it so (`sendable_iff`).
-/

namespace Luna

open Js Past SerdeJson

variable {Callback : Type} {page : Page Callback} {h : History Callback}

namespace Page

/-- A socket that the client would send on is open. -/
def Sendable (page : Page Callback) : Prop :=
  page.client.connected = true → ∀ i, page.client.ws = some i → page.Is i (· = .opened)

/-- What an event needs in order to leave the client with an open socket, or none to send on. -/
def LeavesSendable (page : Page Callback) : Event Callback → Prop
  | .connect true | .reconnect _ true => page.client.connected = false
  | .connect false | .reconnect _ false => ∀ i, page.client.ws = some i → page.Is i (· = .opened)
  | .opens i => ∀ j, page.client.ws = some j → j = i ∨ page.Is j (· = .opened)
  | .closing i => page.client.connected = true → page.client.ws ≠ some i
  | .errors i => ∀ j, page.client.ws = some j → j ≠ i ∧ page.Is j (· = .opened)
  | .timeout => page.client.connected = false →
      ∀ i, page.client.ws = some i → page.Is i (· = .opened)
  | _ => True

variable {i j : Nat} {p : ReadyState → Prop} {readyState : ReadyState} {frame : Frame}

theorem is_enter : (page.enter i readyState).Is j p ↔
    (if j = i then (∃ socket, page.sockets[i]? = some socket) ∧ p readyState else page.Is j p) := by
  unfold Is enter
  simp only [List.getElem?_modify]
  split
  · rename_i same
    subst same
    simp [Socket.enter]
  · rename_i other
    simp [Ne.symm other]

theorem is_send : (page.send frame).Is j p ↔ page.Is j p := by
  unfold send
  split
  · rfl
  · split
    · unfold Is
      simp only [List.getElem?_modify]
      constructor
      · rintro ⟨socket', here, holds⟩
        obtain ⟨socket, there, rfl⟩ := Option.map_eq_some_iff.mp here
        refine ⟨socket, there, ?_⟩
        split at holds
        · rwa [readyState_send] at holds
        · exact holds
      · rintro ⟨socket, there, holds⟩
        rw [there]
        refine ⟨_, rfl, ?_⟩
        split
        · rwa [readyState_send]
        · exact holds
    · rfl

theorem sendable_send : (page.send frame).Sendable ↔ page.Sendable := by
  unfold Sendable
  simp only [client_send, is_send]

/-- What is sent gets to the bridge. -/
theorem Sendable.delivers (sendable : page.Sendable) (connected : page.client.connected = true)
    (ws : page.client.ws = some i) : ∃ socket, page.sockets[i]? = some socket ∧
      (page.send frame).sockets[i]? = some { socket with sent := frame :: socket.sent } := by
  obtain ⟨socket, there, opened⟩ := sendable connected i ws
  refine ⟨socket, there, ?_⟩
  unfold send
  simp [ws, connected, there, send_of_opened opened]

/-! ### One event -/

theorem sendable_connect {available : Bool} :
    (page.connect available).Sendable ↔ page.LeavesSendable (.connect available : Event Callback) := by
  cases available with
  | true =>
    have new : (page.connect true).Is page.sockets.length (· = .connecting) :=
      ⟨.new, List.getElem?_concat_length, rfl⟩
    constructor
    · intro sendable
      by_contra connected
      obtain ⟨socket, there, connecting⟩ := new
      obtain ⟨socket', there', opened⟩ := sendable (Bool.not_eq_false _ ▸ connected) _ rfl
      obtain rfl := Option.some.inj (there.symm.trans there')
      cases connecting.symm.trans opened
    · intro disconnected connected
      cases disconnected.symm.trans connected
  | false => exact ⟨fun sendable => sendable rfl, fun all _ => all⟩

theorem sendable_opens (connecting : page.Is i (· = .connecting)) :
    (page.enter i .opened).onopen.Sendable ↔ page.LeavesSendable (.opens i : Event Callback) := by
  obtain ⟨socket, there, -⟩ := connecting
  have entered : ∀ j, (page.enter i .opened).Is j (· = .opened) ↔ j = i ∨ page.Is j (· = .opened) := by
    intro j
    rw [is_enter]
    split
    · exact iff_of_true ⟨⟨socket, there⟩, rfl⟩ (.inl ‹_›)
    · exact (or_iff_right ‹_›).symm
  exact ⟨fun sendable j ws => (entered j).mp (sendable rfl j ws),
    fun all _ j ws => (entered j).mpr (all j ws)⟩

theorem is_opened_closing :
    (page.enter i .closing).Is j (· = .opened) ↔ j ≠ i ∧ page.Is j (· = .opened) := by
  rw [is_enter]
  split
  · apply iff_of_false
    · rintro ⟨-, ⟨⟩⟩
    · exact fun both => both.1 ‹_›
  · exact (and_iff_right ‹_›).symm

/-- An event leaves the client with an open socket exactly when `LeavesSendable` says so. -/
theorem sendable_step {e : Event Callback} (possible : page.Admissible e) (sendable : page.Sendable) :
    (page.step e).Sendable ↔ page.LeavesSendable e := by
  cases e with
  | connect available => exact sendable_connect
  | reconnect delay available =>
    cases available with
    | true => exact @sendable_connect _ page true
    | false => exact @sendable_connect _ page false
  | subscribe pattern callback => exact iff_of_true (sendable_send.mpr sendable) trivial
  | unsubscribe pattern => exact iff_of_true (sendable_send.mpr sendable) trivial
  | publish method params => exact iff_of_true (sendable_send.mpr sendable) trivial
  | call method params id promise =>
    refine iff_of_true ?_ trivial
    change (page.call method params id promise).Sendable
    unfold call
    split_ifs
    · exact sendable_send.mpr sendable
    · exact sendable
  | opens i => exact sendable_opens possible
  | message i msg =>
    refine iff_of_true (fun connected i ws => ?_) trivial
    change (page.client.dispatch msg).1.connected = true at connected
    change (page.client.dispatch msg).1.ws = some i at ws
    rw [page.client.connected_dispatch] at connected
    rw [page.client.ws_dispatch] at ws
    exact sendable connected i ws
  | closing i =>
    constructor
    · intro after connected ws
      exact (is_opened_closing.mp (after connected i ws)).1 rfl
    · intro other connected j ws
      refine is_opened_closing.mpr ⟨?_, sendable connected j ws⟩
      rintro rfl
      exact other connected ws
  | errors i =>
    exact ⟨fun after j ws => is_opened_closing.mp (after rfl j ws),
      fun all _ j ws => is_opened_closing.mpr (all j ws)⟩
  | closes i =>
    refine iff_of_true ?_ trivial
    rintro ⟨⟩
  | timeout =>
    change (onTimeout _).Sendable ↔ _
    unfold onTimeout
    split
    · rename_i connected
      exact iff_of_true sendable fun disconnected => absurd (disconnected.symm.trans connected) Bool.false_ne_true
    · rename_i disconnected
      exact ⟨fun after _ => after rfl, fun all _ => all (Bool.eq_false_iff.mpr disconnected)⟩
  | callTimeout id => exact iff_of_true sendable trivial

end Page

/-- Throughout a history the client has an open socket, or none to send on, iff every event has
left it so. -/
theorem sendable_iff (valid : Valid h) :
    (∀ g, g <:+ h → (pageOf g).Sendable) ↔ ∀ e g, e :: g <:+ h → (pageOf g).LeavesSendable e := by
  have start : (Page.new : Page Callback).Sendable := by rintro ⟨⟩
  exact always_iff start fun e g suffix sendable =>
    Page.sendable_step (valid.admissible suffix) sendable

/-- The shell subscribes, on the socket that has opened. -/
theorem sendable_iff_subscribed :
    (pageOf subscribed).Sendable ∧ (pageOf subscribed).client.connected = true ∧
      (pageOf subscribed).client.ws = some 0 := by
  have valid : Valid subscribed := ⟨trivial, ⟨.new, rfl, rfl⟩, trivial, trivial⟩
  refine ⟨(sendable_iff valid).mpr ?_ subscribed (List.suffix_refl _), rfl, rfl⟩
  refine forall_moments_cons.mpr ⟨trivial, ?_⟩
  refine forall_moments_cons.mpr ⟨fun j ws => .inl (Option.some.inj ws).symm, ?_⟩
  exact forall_moments_cons.mpr ⟨rfl, forall_moments_nil⟩

/-- The two seconds are over before the socket has opened. -/
def slow : History Unit := [.timeout, .connect true]

/-- The fallback has set the flag, so what the shell publishes goes to a socket that still
connects, which throws. -/
theorem sends_while_connecting :
    Valid slow ∧ (pageOf slow).client.connected = true ∧ (pageOf slow).client.ws = some 0 ∧
      (pageOf slow).Is 0 (· = .connecting) ∧ ¬ (pageOf slow).Sendable := by
  refine ⟨⟨List.mem_singleton.mpr rfl, trivial, trivial⟩, rfl, rfl, ⟨.new, rfl, rfl⟩, ?_⟩
  intro sendable
  obtain ⟨socket, there, opened⟩ := sendable rfl 0 rfl
  cases there
  cases opened

end Luna
