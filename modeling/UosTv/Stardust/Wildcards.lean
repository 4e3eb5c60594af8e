import UosTv.Stardust.Routing

/-!
Wildcards against the segments of a method.

What stands before the `*` of a wildcard pattern is a segment with its dot, but
`matches_topic` drops the dot as well. So the pattern is matched by every method that begins
with the same letters: one of a service with a longer name, or the bare segment
(`matchesTopic_segments`).
-/

namespace Stardust

open Rust

variable {msg : Message} {p q service rest : String}

theorem startsWith_of_startsWith_append {s t : String} (starts : startsWith s (p ++ t) = true) :
    startsWith s p = true := by
  rw [startsWith, decide_eq_true_iff, String.toList_append] at *
  exact (List.prefix_append _ _).trans starts

theorem startsWith_self (s : String) : startsWith s s = true := decide_eq_true (List.prefix_refl _)

/-- A text without dots is the beginning of a method iff it is one of the first segment. -/
theorem startsWith_segment (apart : '.' ∉ p.toList) :
    startsWith (service ++ "." ++ rest) p = startsWith service p := by
  rw [Bool.eq_iff_iff, startsWith, startsWith, decide_eq_true_iff, decide_eq_true_iff,
    String.toList_append, String.toList_append, List.append_assoc]
  constructor
  · intro starts
    rcases List.prefix_or_prefix_of_prefix starts (List.prefix_append _ _) with within | ⟨more, beyond⟩
    · exact within
    · rw [← beyond, List.prefix_append_right_inj] at starts
      cases more with
      | nil =>
        rw [← beyond, List.append_nil]
      | cons c more =>
        obtain ⟨rfl, -⟩ := List.cons_prefix_cons.mp starts
        rw [← beyond] at apart
        exact absurd (List.mem_append_right _ List.mem_cons_self) apart
  · exact fun starts => starts.trans (List.prefix_append _ _)

/-- A wildcard pattern is matched by the methods under its segment, provided that those that
begin with the segment go on with a dot. -/
theorem matchesTopic_iff_segment (msg : Message) (p : String) :
    (msg.matchesTopic (p ++ ".*") = startsWith msg.method (p ++ ".")) ↔
      (startsWith msg.method p = true → startsWith msg.method (p ++ ".") = true) := by
  rw [Message.matchesTopic_wildcard, Bool.eq_iff_iff]
  exact ⟨Iff.mp, fun dotted => ⟨dotted, startsWith_of_startsWith_append⟩⟩

/-- When two wildcard patterns are never both matched. -/
theorem disjoint_iff : (∀ msg : Message, ¬ (msg.matchesTopic (p ++ ".*") = true ∧
      msg.matchesTopic (q ++ ".*") = true)) ↔ startsWith q p = false ∧ startsWith p q = false := by
  simp only [Message.matchesTopic_wildcard, ← Bool.not_eq_true]
  constructor
  · intro never
    have named (method : String) := never (Message.new ⟨0, 0⟩ method)
    exact ⟨fun starts => named q ⟨starts, startsWith_self q⟩,
      fun starts => named p ⟨startsWith_self p, starts⟩⟩
  · rintro ⟨left, right⟩ msg ⟨first, second⟩
    rw [startsWith, decide_eq_true_iff] at first second
    rcases List.prefix_or_prefix_of_prefix first second with starts | starts
    · exact left (decide_eq_true starts)
    · exact right (decide_eq_true starts)

/-- When a message of a service is sent to those who listen to `p`. -/
theorem sentUnder_iff {s : BrokerState} {e : Envelope} {c : ConnId} {tx : Sender}
    (apart : '.' ∉ p.toList) (named : e.msg.method = service ++ "." ++ rest)
    (listens : s.Subscribed c (p ++ ".*")) (connected : s.connections.get c = some tx)
    (other : c ≠ e.senderConn) :
    s.SentUnder e c (p ++ ".*") tx ↔ startsWith service p = true := by
  have sends : .send tx e.msg ∈ s.sendTo e c := BrokerState.mem_sendTo.mpr ⟨other, connected, rfl⟩
  rw [BrokerState.SentUnder, Message.matchesTopic_wildcard, named, startsWith_segment apart]
  exact ⟨fun sent => sent.2.1, fun starts => ⟨listens, starts, sends⟩⟩

/-- Where wildcards respect segments: at a method, for two patterns, and when the message of a
service is routed. -/
theorem matchesTopic_segments (msg : Message) (p q : String) (s : BrokerState) (e : Envelope)
    (c : ConnId) (tx : Sender) (service rest : String) :
    ((msg.matchesTopic (p ++ ".*") = startsWith msg.method (p ++ ".")) ↔
      (startsWith msg.method p = true → startsWith msg.method (p ++ ".") = true)) ∧
    ((∀ msg : Message, ¬ (msg.matchesTopic (p ++ ".*") = true ∧
      msg.matchesTopic (q ++ ".*") = true)) ↔ startsWith q p = false ∧ startsWith p q = false) ∧
    ('.' ∉ p.toList → e.msg.method = service ++ "." ++ rest → s.Subscribed c (p ++ ".*") →
      s.connections.get c = some tx → c ≠ e.senderConn →
      ((s.SentUnder e c (p ++ ".*") tx → service = p) ↔
        (startsWith service p = true → service = p))) := by
  refine ⟨matchesTopic_iff_segment msg p, disjoint_iff, ?_⟩
  intro apart named listens connected other
  rw [sentUnder_iff apart named listens connected other]

/-- A Unix client that listens to the package service. -/
def pkgListener : History := [.unix (.subscribe 1 "pkg.*"), .opened 1]

/-- A message of another client. -/
def methodOf (method : String) : Envelope := ⟨Message.new ⟨0, 0⟩ method, 0⟩

/-- The client does not get what the audio service publishes. -/
theorem matchesTopic_segments_pkg :
    ¬ (tables pkgListener).SentUnder (methodOf "audio.status") 1 ("pkg" ++ ".*") (.conn 1) := by
  intro sent
  have listens : (tables pkgListener).Subscribed 1 ("pkg" ++ ".*") := ⟨_, rfl, by decide⟩
  have segments := matchesTopic_segments (methodOf "audio.status").msg "pkg" "audio"
    (tables pkgListener) (methodOf "audio.status") 1 (.conn 1) "audio" "status"
  have spares := (segments.2.2 (by decide) rfl listens rfl (by decide)).mpr (by decide)
  have same := spares sent
  exact absurd same (by decide)

/-- The client gets the messages of a service with a longer name. A segment alone matches its own
wildcard, and one method matches those of two segments. -/
theorem longer_name_matched :
    (tables pkgListener).SentUnder (methodOf "pkgd.status") 1 ("pkg" ++ ".*") (.conn 1) ∧
      (Message.new ⟨0, 0⟩ "network").matchesTopic ("network" ++ ".*") = true ∧
      startsWith "network" ("network" ++ ".") = false ∧
      (Message.new ⟨0, 0⟩ "audiod.status").matchesTopic ("audio" ++ ".*") = true ∧
      (Message.new ⟨0, 0⟩ "audiod.status").matchesTopic ("audiod" ++ ".*") = true := by
  refine ⟨⟨⟨_, rfl, by decide⟩, by decide, by decide⟩, ?_⟩
  decide

end Stardust
