import UosTv.Rust.Text
import Mathlib.Data.BitVec

/-!
Messages of the Stardust bus (`message.rs`, `error.rs`) and topic matching.

A message is routed by its `method`; a subscription is a pattern that is either an
exact method, `"*"`, or a prefix followed by `".*"`. The prefix test is
`matches_topic`'s own: what stands before `".*"` need not end at a dot of the method.
-/

namespace Stardust

open Rust

/-- `uuid::Uuid`: 128 bits. -/
abbrev Uuid := BitVec 128

/-- `message.rs`: one frame of the bus. -/
structure Message where
  id : Uuid
  src : String
  dst : String
  method : String
  params : List UInt8
  ts : UInt64
deriving DecidableEq, Repr

/-- What `Message::new` takes from its surroundings: a random id and the clock. -/
structure Stamp where
  id : Uuid
  ts : UInt64
deriving DecidableEq, Repr

/-- `Response` of a call. -/
structure Response where
  correlationId : Uuid
  result : Except String (List UInt8)

/-- `error.rs`. The errors of other crates are kept as their texts. -/
inductive Error where
  | io (cause : String)
  | cbor (cause : String)
  | cborDe (cause : String)
  | json (cause : String)
  | connectionClosed
  | timeout (id : Uuid)
  | noResponse (id : Uuid)
  | broker (cause : String)
  | invalidMessage (cause : String)
  | serviceNotFound (name : String)
deriving DecidableEq, Repr

namespace Message

/-- `Message::new`. -/
def new (stamp : Stamp) (method : String) : Message :=
  { id := stamp.id, src := "", dst := "", method, params := [], ts := stamp.ts }

/-- `Message::src`. -/
def withSrc (msg : Message) (src : String) : Message := { msg with src }

/-- `Message::dst`. -/
def withDst (msg : Message) (dst : String) : Message := { msg with dst }

/-- `Message::params_raw`. -/
def paramsRaw (msg : Message) (params : List UInt8) : Message := { msg with params }

/-- `Message::matches_topic`. -/
def matchesTopic (msg : Message) (pattern : String) : Bool :=
  if pattern = "*" then true
  else match stripSuffix pattern ".*" with
    | some pre => startsWith msg.method pre
    | none => msg.method == pattern

@[simp] theorem matchesTopic_star (msg : Message) : msg.matchesTopic "*" = true := if_pos rfl

/-- A pattern that ends neither in `".*"` nor is `"*"` is matched by itself only. -/
theorem matchesTopic_exact {msg : Message} {pattern : String} (star : pattern ≠ "*")
    (wildcard : ¬ ".*".toList <:+ pattern.toList) :
    msg.matchesTopic pattern = true ↔ msg.method = pattern := by
  simp [matchesTopic, star, stripSuffix_eq_none wildcard]

/-- A wildcard pattern is matched by the methods that begin with what stands before it. -/
theorem matchesTopic_wildcard (msg : Message) (pre : String) :
    msg.matchesTopic (pre ++ ".*") = startsWith msg.method pre := by
  have star : pre ++ ".*" ≠ "*" := by
    intro same
    have lengths := congrArg (List.length ∘ String.toList) same
    simp [String.toList_append] at lengths
  rw [matchesTopic, if_neg star, stripSuffix_append]

theorem matchesTopic_iff {msg : Message} {pattern : String} :
    msg.matchesTopic pattern = true ↔ pattern = "*" ∨ pattern = msg.method ∨
      ∃ pre, pattern = pre ++ ".*" ∧ startsWith msg.method pre = true := by
  by_cases star : pattern = "*"
  · rw [star]
    exact iff_of_true msg.matchesTopic_star (.inl rfl)
  · rw [or_iff_right star]
    by_cases wildcard : ".*".toList <:+ pattern.toList
    · obtain ⟨pre, rfl⟩ := eq_append_of_suffix wildcard
      rw [matchesTopic_wildcard]
      constructor
      · exact fun starts => .inr ⟨pre, rfl, starts⟩
      · rintro (exact | ⟨pre', whole, starts⟩)
        · rw [← exact]
          exact startsWith_append _ _
        · rwa [(String.append_left_inj _).mp whole]
    · rw [matchesTopic_exact star wildcard, eq_comm]
      refine (or_iff_left ?_).symm
      rintro ⟨pre, rfl, -⟩
      exact wildcard (suffix_append _ _)

/-- Every pattern is matched by some method that is no longer than the pattern. -/
theorem exists_matchesTopic (pattern : String) :
    ∃ method : String, method.toList.length ≤ pattern.toList.length ∧
      ∀ msg : Message, msg.method = method → msg.matchesTopic pattern = true := by
  by_cases star : pattern = "*"
  · subst star
    exact ⟨"", by decide, fun msg _ => msg.matchesTopic_star⟩
  · by_cases wildcard : ".*".toList <:+ pattern.toList
    · obtain ⟨pre, rfl⟩ := eq_append_of_suffix wildcard
      refine ⟨pre, ?_, fun msg method => ?_⟩
      · rw [String.toList_append, List.length_append]
        exact Nat.le_add_right _ _
      · rw [matchesTopic_wildcard, method, startsWith]
        simp
    · exact ⟨pattern, Nat.le_refl _, fun msg method => (matchesTopic_exact star wildcard).mpr method⟩

end Message

end Stardust
