import UosTv.Stardust.History

/-!
Registered names and the connections they stand for.

Direct routing looks a name up in `services` and its connection in `connections`. The two agree
as long as names are registered by Unix connections, whose channels are stored under their own
ids. `RegisterService` registers a connection that nothing opens, and a direct subscription may
store its channel under the id of a registered connection (`names_reached_iff`).
-/

namespace Stardust

open Past Rust

variable {s : BrokerState} {h g : History} {e : Event} {n : String} {c : ConnId}

namespace BrokerState

/-- Connection `c` is there, with its own channel. -/
def Reached (s : BrokerState) (c : ConnId) : Prop := s.connections.get c = some (.conn c)

/-- Every name in `services` stands for a connection that is there. -/
def NamesReached (s : BrokerState) : Prop := ∀ n c, s.services.get n = some c → s.Reached c

/-- Direct routing hands a message to the connection that is registered under its destination. -/
def Hands (s : BrokerState) (envelope : Envelope) : Prop :=
  ∀ c, s.services.get envelope.msg.dst = some c →
    .send (.conn c) envelope.msg ∈ s.directRoute envelope

/-- What a command needs in order to keep names reached, and a message in order to be handed
over: names are registered by connections that are there, no direct subscription takes the id of
a registered connection, and no service sends a message to itself. -/
def Keeps (s : BrokerState) : BrokerCmd → Prop
  | .register connId _ => s.Reached connId
  | .registerService _ => s.Reached u64Max
  | .subscribeDirect _ _ => ∀ n, s.services.get n ≠ some s.syntheticId
  | .route envelope => ∀ c, s.services.get envelope.msg.dst = some c →
      envelope.msg.dst ≠ "" ∧ c ≠ envelope.senderConn
  | _ => True

/-! ### One command -/

theorem namesReached_register (names : s.NamesReached) :
    { s with services := s.services.insert n c }.NamesReached ↔ s.Reached c := by
  constructor
  · intro after
    refine after n c ?_
    rw [HashMap.get_insert, if_pos rfl]
  · intro reached m d found
    rw [HashMap.get_insert] at found
    split_ifs at found with same
    · cases found
      exact reached
    · exact names m d found

theorem NamesReached.opened (names : s.NamesReached) :
    { s with connections := s.connections.insert c (.conn c) }.NamesReached := by
  intro m d found
  rw [Reached, HashMap.get_insert]
  split_ifs with same
  · rw [same]
  · exact names m d found

theorem NamesReached.unregister (names : s.NamesReached) :
    (runBroker s (.unregister c)).1.NamesReached := by
  intro m d found
  change (s.services.retain fun _ cid => cid ≠ c).get m = some d at found
  rw [HashMap.get_retain, Option.filter_eq_some_iff, decide_eq_true_iff] at found
  change (s.connections.remove c).get d = _
  rw [HashMap.get_remove, if_neg found.2]
  exact names m d found.1

/-- The channel of a direct subscription is no connection's own. -/
theorem namesReached_subscribeDirect {topic : String} {w : WsId} {k : Nat} (names : s.NamesReached) :
    (runBroker s (.subscribeDirect topic (.forward w k))).1.NamesReached ↔
      ∀ n, s.services.get n ≠ some s.syntheticId := by
  constructor
  · intro after m found
    have reached := after m s.syntheticId found
    change (s.connections.insert _ _).get _ = _ at reached
    rw [HashMap.get_insert, if_pos rfl] at reached
    cases reached
  · intro apart m d found
    change (s.connections.insert _ _).get d = _
    rw [HashMap.get_insert, if_neg]
    · exact names m d found
    · rintro rfl
      exact apart m found

theorem hands_iff (names : s.NamesReached) {envelope : Envelope} :
    s.Hands envelope ↔ ∀ c, s.services.get envelope.msg.dst = some c →
      envelope.msg.dst ≠ "" ∧ c ≠ envelope.senderConn := by
  refine forall₂_congr fun c found => ?_
  unfold directRoute
  split_ifs with empty
  · simp [empty]
  · rw [found]
    change _ ∈ s.sendTo envelope c ↔ _
    unfold sendTo
    split_ifs with self
    · simp [self]
    · rw [names _ c found]
      simp [empty, self]

end BrokerState

/-! ### Histories -/

/-- The command of an event, if it is one, meets the condition. -/
def Event.All (p : BrokerCmd → Prop) (e : Event) : Prop := ∀ cmd, e.cmd = some cmd → p cmd

/-- A message that is routed is handed over. -/
def BrokerState.HandsRouted (s : BrokerState) : BrokerCmd → Prop
  | .route envelope => s.Hands envelope
  | _ => True

theorem Event.all_iff {p : BrokerCmd → Prop} {cmd : BrokerCmd} (isCmd : e.cmd = some cmd) :
    e.All p ↔ p cmd :=
  ⟨fun all => all cmd isCmd, fun holds _ isCmd' => Option.some.inj (isCmd.symm.trans isCmd') ▸ holds⟩

theorem BrokerState.namesReached_runBroker {cmd : BrokerCmd} (names : s.NamesReached)
    (forwards : ∀ topic tx, cmd = .subscribeDirect topic tx → ∃ w k, tx = .forward w k) :
    ((runBroker s cmd).1.NamesReached ∧ s.HandsRouted cmd) ↔ s.Keeps cmd := by
  cases cmd with
  | register connId serviceName => exact (and_iff_left trivial).trans (namesReached_register names)
  | registerService name => exact (and_iff_left trivial).trans (namesReached_register names)
  | unregister connId => exact iff_of_true ⟨names.unregister, trivial⟩ trivial
  | subscribeDirect topic tx =>
    obtain ⟨w, k, rfl⟩ := forwards topic tx rfl
    exact (and_iff_left trivial).trans (namesReached_subscribeDirect names)
  | route envelope => exact (and_iff_right names).trans (hands_iff names)
  | _ => exact iff_of_true ⟨names, trivial⟩ trivial

/-- Direct subscriptions come from the bridge, with channels of their own. -/
theorem Event.forwards_of_cmd {cmd : BrokerCmd} (adm : Admissible h e) (isCmd : e.cmd = some cmd)
    (topic : String) (tx : Sender) (direct : cmd = .subscribeDirect topic tx) :
    ∃ w k, tx = .forward w k := by
  obtain rfl := direct
  cases e with
  | unix cmd =>
    obtain rfl : cmd = .subscribeDirect topic tx := Option.some.inj isCmd
    obtain ⟨c, sender, -⟩ := adm
    cases sender
  | ws w cmd =>
    obtain rfl : cmd = .subscribeDirect topic tx := Option.some.inj isCmd
    obtain ⟨⟨k, rfl, -⟩, -⟩ := adm
    exact ⟨w, k, rfl⟩
  | _ => cases isCmd

theorem namesReached_cons (adm : Admissible g e) (names : (tables g).NamesReached) :
    ((tables (e :: g)).NamesReached ∧ e.All (tables g).HandsRouted) ↔ e.All (tables g).Keeps := by
  cases isCmd : e.cmd with
  | none =>
    have none : ∀ p, e.All p := by
      intro p cmd isCmd'
      cases isCmd.symm.trans isCmd'
    refine iff_of_true ⟨?_, none _⟩ (none _)
    cases e with
    | opened c => exact names.opened
    | wsGone w => exact names
    | unix cmd => cases isCmd
    | ws w cmd => cases isCmd
  | some cmd =>
    have after : (tables (e :: g)) = (runBroker (tables g) cmd).1 := by
      cases e with
      | unix cmd' => rw [← Option.some.inj isCmd]; rfl
      | ws w cmd' => rw [← Option.some.inj isCmd]; rfl
      | _ => cases isCmd
    rw [after, Event.all_iff isCmd, Event.all_iff isCmd]
    exact BrokerState.namesReached_runBroker names (Event.forwards_of_cmd adm isCmd)

/-- Throughout a history every registered name stands for a connection that is there, and every
routed message is handed to the connection registered under its destination, iff every command
has met its condition. -/
theorem names_reached_iff (valid : Valid h) :
    ((∀ g, g <:+ h → (tables g).NamesReached) ∧
        ∀ e g, e :: g <:+ h → e.All (tables g).HandsRouted) ↔
      ∀ e g, e :: g <:+ h → e.All (tables g).Keeps :=
  always_and_iff (by rintro _ _ ⟨⟩)
    fun _ _ suffix names => namesReached_cons (valid.admissible suffix) names

/-- `audiod` is registered on one connection, and sent a message from another. -/
def sampleMessage : Message := (Message.new ⟨0, 0⟩ "audio.command.mute").withDst "audiod"

def registeredHistory : History :=
  [.unix (.route ⟨sampleMessage, 1⟩), .unix (.register 0 "audiod"), .opened 1, .opened 0]

theorem names_reached_iff_registered :
    (tables registeredHistory).services.get "audiod" = some 0 ∧
      (tables registeredHistory).NamesReached ∧
      .send (.conn 0) sampleMessage ∈
        (tables registeredHistory.tail).directRoute ⟨sampleMessage, 1⟩ := by
  have valid : Valid registeredHistory := by
    simp [registeredHistory, Valid, Admissible, BrokerCmd.sender, Live]
  have kept := (names_reached_iff valid).mpr ?_
  · refine ⟨rfl, kept.1 _ (List.suffix_refl _), ?_⟩
    exact kept.2 _ _ (List.suffix_refl _) _ rfl 0 rfl
  · have routed : (tables registeredHistory.tail).Keeps (.route ⟨sampleMessage, 1⟩) := by
      intro c found
      cases found
      decide
    have registers : (tables [.opened 1, .opened 0]).Keeps (.register 0 "audiod") := rfl
    have opens : ∀ c p, (Event.opened c).All p := by rintro _ _ _ ⟨⟩
    refine forall_moments_cons.mpr ⟨(Event.all_iff rfl).mpr routed, ?_⟩
    refine forall_moments_cons.mpr ⟨(Event.all_iff rfl).mpr registers, ?_⟩
    refine forall_moments_cons.mpr ⟨opens _ _, ?_⟩
    exact forall_moments_cons.mpr ⟨opens _ _, forall_moments_nil⟩

/-- A client of the bridge registers the name of a service that runs. -/
def takenHistory : History :=
  [.ws 0 (.registerService "audiod"), .unix (.register 0 "audiod"), .opened 1, .opened 0]

/-- The name is taken from the service, and nobody is reached under it any more. -/
theorem name_unreached :
    Valid takenHistory ∧ ¬ (tables takenHistory).NamesReached ∧
      (tables takenHistory).route ⟨sampleMessage, 1⟩ = [] := by
  refine ⟨?_, fun names => ?_, rfl⟩
  · simp [takenHistory, Valid, Admissible, BrokerCmd.sender, BrokerCmd.FromWs, Live]
  · cases names "audiod" u64Max rfl

end Stardust
