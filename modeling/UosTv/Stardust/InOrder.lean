import UosTv.Stardust.System

/-!
Messages arrive in order, each once, and none is missing.

For a connection whose patterns do not overlap, and messages without a destination, what has
been handed to its socket is a prefix of what it is to get: the messages that other
connections routed while it was listening, in the order in which the broker processed them
(`handed_in_order`).
-/

namespace Stardust

open Past Rust

variable {h : History} {r : ConnId} {p : String} {e : Envelope}

/-- `r` has subscribed to `p`, and has neither unsubscribed nor been unregistered since. -/
def Listening (h : History) (r : ConnId) (p : String) : Prop :=
  Since (fun e _ => e ≠ .unix (.unsubscribe r p) ∧ e ≠ .unix (.unregister r))
    (fun e _ => e = .unix (.subscribe r p)) h

/-- `r` is to get the message: it comes from another connection and `r` is listening. -/
def Awaits (h : History) (r : ConnId) (e : Envelope) : Prop :=
  e.senderConn ≠ r ∧ ∃ p, Listening h r p ∧ e.msg.matchesTopic p = true

open Classical in
/-- The messages that `r` is to get, in the order in which the broker processes them. -/
noncomputable def expected (r : ConnId) : History → List Envelope
  | [] => []
  | .unix (.route e) :: h => expected r h ++ if Awaits h r e then [e] else []
  | _ :: h => expected r h

/-! ### One message -/

section Unix

variable (valid : Valid h) (unix : ∀ e ∈ h, e.IsUnix)
include valid unix

theorem listening_iff : Listening h r p ↔ (tables h).Subscribed r p := by
  rw [subscribed_iff]
  apply since_congr
  · intro e g suffix
    have isUnix := unix e (suffix.subset List.mem_cons_self)
    rw [ne_eq e.cmd, ne_eq e.cmd, Event.cmd_iff isUnix, Event.cmd_iff isUnix]
  · intro e g suffix
    have isUnix := unix e (suffix.subset List.mem_cons_self)
    exact (Event.subscribes_iff (valid.admissible suffix) isUnix).symm

/-- A connection that is listening is live. -/
theorem Listening.live (listening : Listening h r p) : Live h r := by
  obtain ⟨later, earlier, rfl, -, -, stays⟩ :=
    (subscribed_unix valid unix).mp ((listening_iff valid unix).mp listening)
  exact ⟨valid.opened_of_mem (List.mem_append_cons_self) rfl, stays⟩

open Classical in
/-- A message without a destination that matches one of the patterns of `r` at most. -/
theorem sentTo_route_of_single (plain : e.msg.dst = "")
    (single : ∀ p q, Listening h r p → Listening h r q → e.msg.matchesTopic p = true →
      e.msg.matchesTopic q = true → p = q) :
    sentTo (.conn r) (runBroker (tables h) (.route e)).2 =
      if Awaits h r e then [e.msg] else [] := by
  by_cases live : Live h r
  · have stored : (tables h).connections.get r = some (.conn r) :=
      (connections_unix valid unix).mpr ⟨rfl, live⟩
    have direct : ¬ (tables h).Direct e.msg r := fun direct => direct.1 plain
    simp only [listening_iff valid unix] at single
    rw [runBroker, BrokerState.sentTo_route (valid.owns stored), BrokerState.copies, if_neg direct,
      BrokerState.length_matchingPatterns single]
    simp only [Awaits, listening_iff valid unix]
    by_cases sender : r = e.senderConn
    · simp [sender]
    · have other : e.senderConn ≠ r := fun same => sender same.symm
      rw [if_neg sender]
      by_cases way : ∃ p, (tables h).Subscribed r p ∧ e.msg.matchesTopic p = true
      · rw [if_pos way, if_pos ⟨other, way⟩]
        rfl
      · rw [if_neg way, if_neg fun awaits => way awaits.2]
        rfl
  · have deaf : ¬ Awaits h r e := by
      rintro ⟨-, p, listening, -⟩
      exact live (listening.live valid unix)
    rw [if_neg deaf, List.eq_nil_iff_forall_not_mem]
    intro msg mem
    obtain ⟨-, c, -, stored, -⟩ := BrokerState.mem_route.mp (mem_sentTo.mp mem)
    obtain ⟨same, live'⟩ := (connections_unix valid unix).mp stored
    obtain rfl := Sender.conn.inj same
    exact live live'

end Unix

/-! ### A history -/

/-- What the broker has sent to a connection is what the connection is to get. -/
theorem routedTo_eq_expected (valid : Valid h) (unix : ∀ e ∈ h, e.IsUnix)
    (plain : ∀ e, .unix (.route e) ∈ h → e.msg.dst = "")
    (single : ∀ e g, .unix (.route e) :: g <:+ h → ∀ p q, Listening g r p → Listening g r q →
      e.msg.matchesTopic p = true → e.msg.matchesTopic q = true → p = q) :
    System.routedTo r h = (expected r h).map (·.msg) := by
  induction h with
  | nil => rfl
  | cons x h ih =>
    have ih := ih valid.2 (fun e mem => unix e (List.mem_cons_of_mem _ mem))
      (fun e mem => plain e (List.mem_cons_of_mem _ mem))
      fun e g suffix => single e g (suffix.trans (List.suffix_cons _ _))
    rw [System.routedTo, ih]
    cases x with
    | unix cmd =>
      cases cmd with
      | route e =>
        rw [Event.step, sentTo_route_of_single valid.2
          (fun e mem => unix e (List.mem_cons_of_mem _ mem)) (plain e List.mem_cons_self)
          (single e h (List.suffix_refl _)), expected, List.map_append]
        by_cases awaits : Awaits h r e
        · simp [awaits]
        · simp [awaits]
      | _ => exact List.append_nil _
    | opened c => exact List.append_nil _
    | wsGone w => exact List.append_nil _
    | ws w cmd => exact (unix _ List.mem_cons_self).elim

/-- The message of a command that routes one. -/
def BrokerCmd.routed : BrokerCmd → Option Message
  | .route e => some e.msg
  | _ => none

/-- Of one publisher, a connection is to get some of the messages routed, in their order. -/
theorem expected_sublist (p : ConnId) :
    List.Sublist (((expected r h).filter fun e => e.senderConn = p).map (·.msg))
      ((commandsOf p h).reverse.filterMap BrokerCmd.routed) := by
  induction h with
  | nil => exact List.Sublist.refl _
  | cons x h ih =>
    have more : List.Sublist ((commandsOf p h).reverse.filterMap BrokerCmd.routed)
        ((commandsOf p (x :: h)).reverse.filterMap BrokerCmd.routed) :=
      (((List.sublist_cons_self x h).filterMap _).reverse).filterMap _
    cases x with
    | unix cmd =>
      cases cmd with
      | route e =>
        rw [expected]
        by_cases own : e.senderConn = p
        · have command : commandsOf p (.unix (.route e) :: h) = .route e :: commandsOf p h :=
            List.filterMap_cons_some
              (Event.commandOf_eq_some.mpr ⟨rfl, congrArg some own⟩)
          rw [command, List.reverse_cons, List.filterMap_append, List.filter_append,
            List.map_append]
          refine ih.append ?_
          split_ifs
          · simp [own, BrokerCmd.routed]
          · simp
        · rw [List.filter_append, List.map_append]
          split_ifs
          · simpa [own] using ih.trans more
          · simpa using ih.trans more
      | _ => exact ih.trans more
    | _ => exact ih.trans more

/-- The frames that a task routes are some of those written, in their order. -/
theorem routed_handleFrame_sublist (c : ConnId) (frames : List Message) :
    List.Sublist ((frames.map (handleFrame c)).filterMap BrokerCmd.routed) frames := by
  rw [List.filterMap_map]
  have same : ∀ msg, (BrokerCmd.routed ∘ handleFrame c) msg = none ∨
      (BrokerCmd.routed ∘ handleFrame c) msg = some msg := by
    intro msg
    simp only [Function.comp, handleFrame]
    split_ifs
    · exact .inl rfl
    · exact .inl rfl
    · exact .inl rfl
    · exact .inr rfl
  induction frames with
  | nil => exact List.Sublist.refl _
  | cons msg frames ih =>
    rcases same msg with control | routed
    · rw [List.filterMap_cons_none control]
      exact ih.cons msg
    · rw [List.filterMap_cons_some routed]
      exact ih.cons_cons msg

/-- The broker has routed some of the messages that a client has written, in their order. -/
theorem System.Inv.routed_sublist {s : System} (inv : s.Inv) (c : ConnId) :
    List.Sublist ((commandsOf c s.log).reverse.filterMap BrokerCmd.routed) (s.conns c).written := by
  have processed : (commandsOf c s.log).reverse <+: s.commands c := List.prefix_append _ _
  have stream := inv.stream c
  unfold Conn.Stream at stream
  have frames : ∃ frames, frames <+: (s.conns c).written ∧
      (s.commands c).filterMap BrokerCmd.routed =
        (frames.map (handleFrame c)).filterMap BrokerCmd.routed := by
    cases status : (s.conns c).status with
    | running =>
      simp only [status] at stream
      obtain ⟨frames, unread, written, same, -⟩ := List.map_eq_append_iff.mp stream.symm
      exact ⟨frames, ⟨unread, written.symm⟩, by rw [same]⟩
    | done =>
      simp only [status] at stream
      obtain ⟨frames, written, same⟩ := stream
      refine ⟨frames, written, ?_⟩
      rw [same, List.filterMap_append]
      exact List.append_nil _
    | _ =>
      simp only [status] at stream
      exact ⟨[], List.nil_prefix, by rw [stream.1]; rfl⟩
  obtain ⟨frames, written, same⟩ := frames
  calc List.Sublist ((commandsOf c s.log).reverse.filterMap BrokerCmd.routed)
        ((s.commands c).filterMap BrokerCmd.routed) := processed.sublist.filterMap _
    _ = (frames.map (handleFrame c)).filterMap BrokerCmd.routed := same
    List.Sublist _ frames := routed_handleFrame_sublist c frames
    List.Sublist _ (s.conns c).written := written.sublist

/-! ### Every run -/

/-- **In order, once, and none missing.** In every run, what has been handed to a
connection is a prefix of what it is to get, in the order in which the broker processes it,
when no two of its patterns match one message and no message names a destination. The
messages of one publisher are handed over in the order in which they were written. -/
theorem handed_in_order {s : System} (reachable : s.Reachable) (r : ConnId)
    (plain : ∀ e, .unix (.route e) ∈ s.log → e.msg.dst = "")
    (single : ∀ e g, .unix (.route e) :: g <:+ s.log → ∀ p q, Listening g r p →
      Listening g r q → e.msg.matchesTopic p = true → e.msg.matchesTopic q = true → p = q) :
    ∃ envelopes, envelopes <+: expected r s.log ∧
      (s.conns r).handed = envelopes.map (·.msg) ∧
      ∀ p, List.Sublist ((envelopes.filter fun e => e.senderConn = p).map (·.msg))
        (s.conns p).written := by
  have inv := reachable.inv
  have handed : (s.conns r).handed <+: (expected r s.log).map (·.msg) := by
    rw [← routedTo_eq_expected inv.valid inv.unix plain single]
    exact (inv.channel r).handed
  obtain ⟨rest, split⟩ := handed
  obtain ⟨envelopes, later, whole, same, -⟩ := List.map_eq_append_iff.mp split.symm
  refine ⟨envelopes, ⟨later, whole.symm⟩, same.symm, fun p => ?_⟩
  have early : List.Sublist envelopes (expected r s.log) := by
    rw [whole]
    exact List.sublist_append_left _ _
  exact (((early.filter _).map _).trans (expected_sublist p)).trans (inv.routed_sublist p)

/-- A frame that subscribes to `"*"`, and two messages. -/
def subscribeAll : Message := (Message.new ⟨0, 0⟩ "__stardust.subscribe").paramsRaw [0x2a]

def count (n : Nat) : Message := Message.new ⟨BitVec.ofNat 128 n, 0⟩ "test.counter"

/-- Connection 1 subscribes, connection 0 publishes twice, and one message is handed over. -/
def counting : List Action :=
  [.accept, .accept, .start 0, .start 1, .write 1 subscribeAll, .read 1, .broker,
    .write 0 (count 1), .write 0 (count 2), .read 0, .read 0, .broker, .broker, .send 1]

theorem handed_in_order_counting : ∃ s, System.init.run counting = some s ∧
    (s.conns 1).handed = [count 1] ∧
    ∃ envelopes, envelopes <+: expected 1 s.log ∧
      (s.conns 1).handed = envelopes.map (·.msg) ∧
      ∀ p, List.Sublist ((envelopes.filter fun e => e.senderConn = p).map (·.msg))
        (s.conns p).written := by
  have possible : (System.init.run counting).isSome := by rfl
  obtain ⟨s, steps⟩ := Option.isSome_iff_exists.mp possible
  have log : (System.init.run counting).map System.log = some
      [.unix (.route ⟨count 2, 0⟩), .unix (.route ⟨count 1, 0⟩), .unix (.subscribe 1 "*"),
        .opened 1, .opened 0] := by rfl
  have handed : (System.init.run counting).map (fun s => (s.conns 1).handed) = some [count 1] := by
    rfl
  rw [steps] at log handed
  have log := Option.some.inj log
  refine ⟨s, steps, Option.some.inj handed, handed_in_order (.run .init steps) 1 ?_ ?_⟩
  · rw [log]
    intro e mem
    simp at mem
    rcases mem with rfl | rfl
    · rfl
    · rfl
  · rw [log]
    intro e g suffix p q listening listening' _ _
    have star : ∀ p, Listening g 1 p → p = "*" := by
      intro p listening
      obtain ⟨_, earlier, inner, rfl⟩ := Since.exists_start listening
      have mem := (inner.trans ((List.suffix_cons _ _).trans suffix)).subset List.mem_cons_self
      simpa using mem
    rw [star p listening, star q listening']

end Stardust
