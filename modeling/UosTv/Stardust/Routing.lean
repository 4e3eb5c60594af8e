import UosTv.Stardust.UnixTables

/-!
What one `Route` sends.

A message is sent to the connection registered under its destination and, for every
pattern that matches it, to every connection under that pattern; the sending connection
is skipped. The two ways and the patterns do not know of each other, so a connection gets
one copy for each: `sentTo_route` counts them. Channels belong to one connection each, so
copies on a channel are copies to a connection.
-/

namespace Stardust

open Past Rust

/-- The messages among `outs` that go to the channel `tx`, in order. -/
def sentTo (tx : Sender) (outs : List Output) : List Message :=
  outs.filterMap fun
    | .send tx' msg => if tx' = tx then some msg else none
    | .reply _ _ => none

@[simp] theorem sentTo_nil (tx : Sender) : sentTo tx [] = [] := rfl

theorem sentTo_append (tx : Sender) (a b : List Output) :
    sentTo tx (a ++ b) = sentTo tx a ++ sentTo tx b := List.filterMap_append

theorem mem_sentTo {tx : Sender} {outs : List Output} {msg : Message} :
    msg ∈ sentTo tx outs ↔ .send tx msg ∈ outs := by
  simp only [sentTo, List.mem_filterMap]
  constructor
  · rintro ⟨out, mem, sent⟩
    cases out with
    | send tx' msg' =>
      obtain ⟨rfl, rfl⟩ : tx' = tx ∧ msg' = msg := by simpa using sent
      exact mem
    | reply call result => cases sent
  · intro mem
    exact ⟨_, mem, by simp⟩

theorem sentTo_flatMap {α : Type*} (tx : Sender) (l : List α) (f : α → List Output) :
    sentTo tx (l.flatMap f) = l.flatMap fun a => sentTo tx (f a) := by
  induction l with
  | nil => rfl
  | cons a l ih => rw [List.flatMap_cons, sentTo_append, ih, List.flatMap_cons]

namespace BrokerState

variable {s : BrokerState} {e : Envelope} {c : ConnId} {tx : Sender}

/-- The connection is registered under the message's destination. -/
def Direct (s : BrokerState) (msg : Message) (c : ConnId) : Prop :=
  msg.dst ≠ "" ∧ s.services.get msg.dst = some c

instance (s : BrokerState) (msg : Message) (c : ConnId) : Decidable (s.Direct msg c) := by
  unfold Direct; infer_instance

/-- The connection is to get the message: directly or through a topic. -/
def Due (s : BrokerState) (msg : Message) (c : ConnId) : Prop :=
  s.Direct msg c ∨ ∃ p, s.Subscribed c p ∧ msg.matchesTopic p = true

/-- The patterns under which the connection stands and that the message matches. -/
def matchingPatterns (s : BrokerState) (msg : Message) (c : ConnId) : List String :=
  (s.subscriptions.entries.filter fun entry => msg.matchesTopic entry.1 && decide (c ∈ entry.2)).map
    (·.1)

/-- The copies of a message that a `Route` sends to a connection. -/
def copies (s : BrokerState) (e : Envelope) (c : ConnId) : Nat :=
  if c = e.senderConn then 0
  else (if s.Direct e.msg c then 1 else 0) + (s.matchingPatterns e.msg c).length

theorem mem_matchingPatterns {msg : Message} {p : String} :
    p ∈ s.matchingPatterns msg c ↔ s.Subscribed c p ∧ msg.matchesTopic p = true := by
  simp only [matchingPatterns, List.mem_map, List.mem_filter, Subscribed, Bool.and_eq_true,
    decide_eq_true_eq]
  constructor
  · rintro ⟨⟨p', conns⟩, ⟨mem, matched, sub⟩, rfl⟩
    exact ⟨⟨conns, HashMap.mem_entries.mp mem, sub⟩, matched⟩
  · rintro ⟨⟨conns, found, sub⟩, matched⟩
    exact ⟨⟨p, conns⟩, ⟨HashMap.mem_entries.mpr found, matched, sub⟩, rfl⟩

theorem nodup_matchingPatterns (msg : Message) : (s.matchingPatterns msg c).Nodup :=
  s.subscriptions.keys_nodup.sublist (List.filter_sublist.map _)

/-- A connection is due a message exactly when some way leads to it. -/
theorem due_iff {msg : Message} :
    s.Due msg c ↔ s.Direct msg c ∨ s.matchingPatterns msg c ≠ [] := by
  unfold Due
  refine or_congr Iff.rfl ⟨?_, fun some => ?_⟩
  · rintro ⟨p, way⟩
    exact List.ne_nil_of_mem (mem_matchingPatterns.mpr way)
  · obtain ⟨p, mem⟩ := List.exists_mem_of_ne_nil _ some
    exact ⟨p, mem_matchingPatterns.mp mem⟩

instance (s : BrokerState) (msg : Message) (c : ConnId) : Decidable (s.Due msg c) :=
  decidable_of_iff _ due_iff.symm

theorem mem_sendTo {msg : Message} :
    .send tx msg ∈ s.sendTo e c ↔
      c ≠ e.senderConn ∧ s.connections.get c = some tx ∧ msg = e.msg := by
  unfold sendTo
  split_ifs with sender
  · simp [sender]
  · cases s.connections.get c with
    | none => simp
    | some tx' => simp [sender, eq_comm]

theorem mem_directRoute {msg : Message} :
    .send tx msg ∈ s.directRoute e ↔ msg = e.msg ∧
      ∃ c, c ≠ e.senderConn ∧ s.connections.get c = some tx ∧ s.Direct e.msg c := by
  unfold directRoute Direct
  by_cases broadcast : e.msg.dst = ""
  · simp [broadcast]
  · rw [if_neg broadcast]
    rcases Option.eq_none_or_eq_some (s.services.get e.msg.dst) with found | ⟨target, found⟩
    · simp [found]
    · simp only [found, mem_sendTo]
      constructor
      · rintro ⟨other, stored, same⟩
        exact ⟨same, target, other, stored, broadcast, rfl⟩
      · rintro ⟨same, c, other, stored, -, ⟨⟩⟩
        exact ⟨other, stored, same⟩

/-- The loop over the patterns sends the message on `tx` because `c` stands under `p`. -/
def SentUnder (s : BrokerState) (e : Envelope) (c : ConnId) (p : String) (tx : Sender) : Prop :=
  s.Subscribed c p ∧ e.msg.matchesTopic p = true ∧ .send tx e.msg ∈ s.sendTo e c

theorem mem_topicRoute {msg : Message} :
    .send tx msg ∈ s.topicRoute e ↔ msg = e.msg ∧ ∃ c p, s.SentUnder e c p tx := by
  unfold topicRoute
  rw [List.mem_flatMap]
  constructor
  · rintro ⟨⟨p, conns⟩, mem, sent⟩
    split_ifs at sent with matched
    · obtain ⟨c, sub, sent⟩ := List.mem_flatMap.mp sent
      obtain rfl := (mem_sendTo.mp sent).2.2
      exact ⟨rfl, c, p, ⟨conns, HashMap.mem_entries.mp mem, sub⟩, matched, sent⟩
    · cases sent
  · rintro ⟨rfl, c, p, ⟨conns, found, sub⟩, matched, sent⟩
    refine ⟨⟨p, conns⟩, HashMap.mem_entries.mpr found, ?_⟩
    rw [if_pos matched]
    exact List.mem_flatMap.mpr ⟨c, sub, sent⟩

/-- **What a `Route` sends.** A message goes to the channel of every connection that it
is due, the sender excepted. -/
theorem mem_route {msg : Message} :
    .send tx msg ∈ s.route e ↔ msg = e.msg ∧
      ∃ c, c ≠ e.senderConn ∧ s.connections.get c = some tx ∧ s.Due e.msg c := by
  unfold route
  rw [List.mem_append, mem_directRoute, mem_topicRoute]
  constructor
  · rintro (⟨same, c, other, stored, direct⟩ | ⟨same, c, p, sub, matched, sent⟩)
    · exact ⟨same, c, other, stored, .inl direct⟩
    · obtain ⟨other, stored, -⟩ := mem_sendTo.mp sent
      exact ⟨same, c, other, stored, .inr ⟨p, sub, matched⟩⟩
  · rintro ⟨same, c, other, stored, direct | ⟨p, sub, matched⟩⟩
    · exact .inl ⟨same, c, other, stored, direct⟩
    · exact .inr ⟨same, c, p, sub, matched, mem_sendTo.mpr ⟨other, stored, rfl⟩⟩

/-! ### Counting copies -/

/-- The channel is stored for this connection and for no other. -/
def Owns (s : BrokerState) (c : ConnId) (tx : Sender) : Prop :=
  ∀ c', s.connections.get c' = some tx ↔ c' = c

theorem sentTo_sendTo (owns : s.Owns c tx) (c' : ConnId) :
    sentTo tx (s.sendTo e c') = if c' = c ∧ c ≠ e.senderConn then [e.msg] else [] := by
  have stored := owns c'
  unfold sendTo
  by_cases sender : c' = e.senderConn
  · rw [if_pos sender, if_neg (by rintro ⟨rfl, other⟩; exact other sender), sentTo_nil]
  · rw [if_neg sender]
    cases found : s.connections.get c' with
    | none =>
      rw [if_neg (by rintro ⟨same, -⟩; rw [stored.mpr same] at found; cases found), sentTo_nil]
    | some tx' =>
      by_cases same : c' = c
      · have owned : tx' = tx := Option.some.inj (found.symm.trans (stored.mpr same))
        subst same
        simp [sentTo, owned, sender]
      · have other : tx' ≠ tx := fun owned => same (stored.mp (by rw [found, owned]))
        simp [sentTo, other, same]

theorem sentTo_directRoute (owns : s.Owns c tx) :
    sentTo tx (s.directRoute e) =
      if s.Direct e.msg c ∧ c ≠ e.senderConn then [e.msg] else [] := by
  unfold directRoute Direct
  by_cases broadcast : e.msg.dst = ""
  · simp [broadcast]
  · rw [if_neg broadcast]
    rcases Option.eq_none_or_eq_some (s.services.get e.msg.dst) with found | ⟨target, found⟩
    · simp [found]
    · simp [found, sentTo_sendTo owns, broadcast]

theorem sentTo_topicRoute (owns : s.Owns c tx) (other : c ≠ e.senderConn) :
    sentTo tx (s.topicRoute e) = List.replicate (s.matchingPatterns e.msg c).length e.msg := by
  unfold topicRoute matchingPatterns
  rw [sentTo_flatMap, List.length_map]
  induction s.subscriptions.entries with
  | nil => rfl
  | cons entry entries ih =>
    rw [List.flatMap_cons, ih]
    have members : sentTo tx (entry.2.elems.flatMap (s.sendTo e)) =
        if c ∈ entry.2 then [e.msg] else [] := by
      rw [sentTo_flatMap, HashSet.flatMap_elems entry.2 (a := c)]
      · simp [sentTo_sendTo owns, other]
      · intro c' different
        simp [sentTo_sendTo owns, different]
    by_cases matched : e.msg.matchesTopic entry.1 = true
    · by_cases sub : c ∈ entry.2
      · simp [matched, sub, members, List.replicate_succ]
      · simp [matched, sub, members]
    · simp [matched]

open Classical in
/-- Of patterns that do not overlap on the message, one at most matches it. -/
theorem length_matchingPatterns {msg : Message}
    (single : ∀ p q, s.Subscribed c p → s.Subscribed c q → msg.matchesTopic p = true →
      msg.matchesTopic q = true → p = q) :
    (s.matchingPatterns msg c).length =
      if ∃ p, s.Subscribed c p ∧ msg.matchesTopic p = true then 1 else 0 := by
  split_ifs with some
  · obtain ⟨p, sub, matched⟩ := some
    have mem : p ∈ s.matchingPatterns msg c := mem_matchingPatterns.mpr ⟨sub, matched⟩
    have only : s.matchingPatterns msg c ⊆ [p] := by
      intro q way
      obtain ⟨sub', matched'⟩ := mem_matchingPatterns.mp way
      rw [single q p sub' sub matched' matched]
      exact List.mem_singleton_self p
    exact Nat.le_antisymm ((s.nodup_matchingPatterns msg).subperm only).length_le
      (List.length_pos_of_mem mem)
  · rw [List.length_eq_zero_iff, List.eq_nil_iff_forall_not_mem]
    intro p mem
    exact some ⟨p, mem_matchingPatterns.mp mem⟩

/-- **Copies.** The messages that a `Route` sends on a connection's channel are that many
copies of the routed message, one for the destination and one for each pattern. -/
theorem sentTo_route (owns : s.Owns c tx) :
    sentTo tx (s.route e) = List.replicate (s.copies e c) e.msg := by
  unfold route copies
  rw [sentTo_append, sentTo_directRoute owns]
  by_cases sender : c = e.senderConn
  · have none : ∀ msg, msg ∉ sentTo tx (s.topicRoute e) := by
      intro msg mem
      have sent := mem_route.mp (List.mem_append_right (s.directRoute e) (mem_sentTo.mp mem))
      obtain ⟨-, c', different, stored, -⟩ := sent
      exact different (((owns c').mp stored).trans sender)
    simp [sender, List.eq_nil_iff_forall_not_mem.mpr none]
  · rw [sentTo_topicRoute owns sender, if_neg sender]
    by_cases direct : s.Direct e.msg c
    · simp [direct, sender, Nat.add_comm 1, List.replicate_succ]
    · simp [direct]

end BrokerState

/-! ### Channels in a history -/

variable {h : History} {c r : ConnId}

/-- A command of a valid history stores channels of WebSocket clients only. -/
theorem Valid.stores_conn {g : History} {e : Event} (adm : Admissible g e)
    (stores : e.Stores (tables g) c (.conn r)) : e = .opened r ∧ c = r := by
  rcases stores with ⟨rfl, same⟩ | ⟨cmd, isCmd, stores⟩
  · obtain rfl : r = c := by simpa using same
    exact ⟨rfl, rfl⟩
  · cases cmd with
    | subscribeDirect topic tx =>
      obtain ⟨-, rfl⟩ := stores
      cases e with
      | unix cmd =>
        obtain rfl : cmd = _ := Option.some.inj isCmd
        simp [Admissible, BrokerCmd.sender] at adm
      | ws w cmd =>
        obtain rfl : cmd = _ := Option.some.inj isCmd
        simp [Admissible, BrokerCmd.FromWs] at adm
      | opened c => cases isCmd
      | wsGone w => cases isCmd
    | _ => cases stores

/-- The channel of a Unix connection stands under that connection. -/
theorem Valid.connections_conn (valid : Valid h)
    (stored : (tables h).connections.get c = some (.conn r)) : c = r ∧ .opened r ∈ h := by
  obtain ⟨e, g, suffix, stores⟩ := (connections_iff.mp stored).exists_start
  obtain ⟨rfl, same⟩ := Valid.stores_conn (valid.admissible suffix) stores
  exact ⟨same, suffix.subset List.mem_cons_self⟩

/-- While the broker has a connection's own channel, that channel is its alone. -/
theorem Valid.owns (valid : Valid h) (stored : (tables h).connections.get c = some (.conn c)) :
    (tables h).Owns c (.conn c) := by
  intro c'
  constructor
  · exact fun stored' => (valid.connections_conn stored').1
  · rintro rfl
    exact stored

end Stardust
