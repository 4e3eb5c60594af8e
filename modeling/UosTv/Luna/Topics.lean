import UosTv.Luna.Bus
import UosTv.Stardust.Message

/-!
The topic matcher of the shell and that of the broker.

`_matchTopic` knows exact patterns and wildcards at the end, as `matches_topic` does, but not
the pattern `"*"`. For that pattern alone the two differ (`agree_iff`).
-/

namespace Luna

open Js

namespace StardustClient

variable {Callback : Type} {client : StardustClient Callback} {pattern method : String}

/-- `_matchTopic` on Unicode strings. -/
theorem matchTopic_iff :
    matchTopic (encode pattern) (encode method) = true ↔
      pattern = method ∨ ∃ pre, pattern = pre ++ ".*" ∧ Rust.startsWith method pre = true := by
  unfold matchTopic
  split_ifs with same wildcard
  · exact iff_of_true rfl (.inl (encode_injective same))
  · obtain ⟨pre, rfl⟩ := Rust.eq_append_of_suffix ((endsWith_encode pattern ".*").mp wildcard)
    have cut : dropEnd (encode (pre ++ ".*")) 2 = encode pre := dropEnd_encode_append pre ".*"
    rw [cut, startsWith_encode]
    constructor
    · exact fun starts => .inr ⟨pre, rfl, starts⟩
    · rintro (exact | ⟨pre', whole, starts⟩)
      · exact absurd (congrArg encode exact) same
      · rwa [(String.append_left_inj _).mp whole]
  · refine iff_of_false not_false ?_
    rintro (exact | ⟨pre, rfl, -⟩)
    · exact same (congrArg encode exact)
    · exact wildcard ((endsWith_encode _ _).mpr (Rust.suffix_append _ _))

/-- The broker takes `"*"` for a pattern that everything matches, the shell does not. -/
theorem matchesTopic_iff_matchTopic {msg : Stardust.Message} :
    msg.matchesTopic pattern = true ↔
      pattern = "*" ∨ matchTopic (encode pattern) (encode msg.method) = true := by
  rw [matchTopic_iff, Stardust.Message.matchesTopic_iff]

/-- To the shell `"*"` is a method like others. -/
theorem matchTopic_star : matchTopic (encode "*") (encode method) = true ↔ method = "*" := by
  rw [matchTopic_iff]
  constructor
  · rintro (exact | ⟨pre, whole, -⟩)
    · exact exact.symm
    · have ends := Rust.suffix_append pre ".*"
      rw [← whole] at ends
      exact absurd ends (by decide)
  · exact fun exact => .inl exact.symm

/-- `_dispatch` calls what is registered for every pattern that the method matches. -/
theorem callback_mem_dispatch {pattern method : Str} {callbacks : List Callback} {cb : Callback}
    {params : SerdeJson.Value} (registered : client.subscribers.get pattern = some callbacks)
    (mem : cb ∈ callbacks) (accepts : matchTopic pattern method = true) :
    .callback cb method params ∈ (client.dispatch (.event method params)).2 := by
  refine List.mem_flatMap.mpr ⟨_, Map.mem_entries.mpr registered, ?_⟩
  rw [if_pos accepts]
  exact List.mem_map.mpr ⟨cb, mem, rfl⟩

/-- A message that the broker delivers for a subscription to `pattern` gets to what is registered
for `pattern`, and the shell takes no message for one that the broker would not deliver. -/
def Agree (client : StardustClient Callback) (pattern : String) (msg : Stardust.Message) : Prop :=
  (msg.matchesTopic pattern = true →
    matchTopic (encode pattern) (encode msg.method) = true ∧
      ∀ callbacks, client.subscribers.get (encode pattern) = some callbacks → ∀ cb ∈ callbacks,
        ∀ params, .callback cb (encode msg.method) params ∈
          (client.dispatch (.event (encode msg.method) params)).2) ∧
  (matchTopic (encode pattern) (encode msg.method) = true → msg.matchesTopic pattern = true)

/-- The two matchers agree on a pattern and a method iff the pattern is not `"*"`, or the method
is `"*"` as well. -/
theorem agree_iff {msg : Stardust.Message} :
    Agree client pattern msg ↔ (pattern = "*" → msg.method = "*") := by
  constructor
  · rintro ⟨delivered, -⟩ rfl
    exact matchTopic_star.mp (delivered msg.matchesTopic_star).1
  · intro other
    constructor
    · intro matched
      have accepts : matchTopic (encode pattern) (encode msg.method) = true := by
        rcases matchesTopic_iff_matchTopic.mp matched with rfl | accepts
        · exact matchTopic_star.mpr (other rfl)
        · exact accepts
      exact ⟨accepts, fun _ registered _ mem _ => callback_mem_dispatch registered mem accepts⟩
    · exact fun accepts => matchesTopic_iff_matchTopic.mpr (.inr accepts)

/-- A client with one subscription, to everything. -/
def sampleClient : StardustClient Unit := StardustClient.new.addSubscriber (encode "*") ()

/-- The broker delivers every message for this subscription, and the shell drops them. -/
theorem dropped_by_dispatch :
    let msg := Stardust.Message.new ⟨0, 0⟩ "audio.status"
    msg.matchesTopic "*" = true ∧
      (sampleClient.dispatch (.event (encode msg.method) .null)).2 = [] ∧
      ¬ Agree sampleClient "*" msg := by
  refine ⟨rfl, rfl, fun agree => ?_⟩
  have accepts := (agree.1 rfl).1
  revert accepts
  decide

end StardustClient

end Luna
