import UosTv.Stardust.Codec

/-!
Reading any bytes at all.

`decode` indexes, advances and splits its buffer. `decodeOrPanic` makes that explicit, with
`none` for a panic, and never panics (`decodeOrPanic_eq`). A call takes one frame or nothing,
whatever the payload is, so the frames of a stream are found without regard to what they hold
and to how the stream has been cut into fragments (`reads_frames`).
-/

namespace Stardust

namespace StardustCodec

/-- `Buf::advance`, which panics beyond the end. -/
def advance (src : List UInt8) (count : Nat) : Option (List UInt8) :=
  if count ≤ src.length then some (src.drop count) else none

/-- `BytesMut::split_to`, which panics beyond the end: the bytes before and after. -/
def splitTo (src : List UInt8) (index : Nat) : Option (List UInt8 × List UInt8) :=
  if index ≤ src.length then some (src.take index, src.drop index) else none

/-- `a - b` of two `usize`, which panics below zero. -/
def subUsize (a b : Nat) : Option Nat := if b ≤ a then some (a - b) else none

/-- `Decoder::decode` with the operations that can panic. -/
def decodeOrPanic (cbor : Cbor) (src : List UInt8) :
    Option (Except Error (Option Message) × List UInt8) :=
  if src.length < 4 then some (.ok none, src)
  else do
    let len := fromLeBytes (← src[0]?) (← src[1]?) (← src[2]?) (← src[3]?)
    if src.length < 4 + len then
      -- The buffer grows; what it holds stays.
      let _ ← subUsize (4 + len) src.length
      some (.ok none, src)
    else
      let src ← advance src 4
      let (payload, src) ← splitTo src len
      match cbor.fromReader payload with
      | .error e => some (.error e, src)
      | .ok msg => some (.ok (some msg), src)

/-- The length in a header. -/
def headerLen : List UInt8 → Nat
  | [b₀, b₁, b₂, b₃] => fromLeBytes b₀ b₁ b₂ b₃
  | _ => 0

/-- One frame with any payload. -/
def frame (payload : List UInt8) : List UInt8 := putU32Le payload.length ++ payload

variable {cbor : Cbor} {src : List UInt8}

/-- No call of `decode` panics. -/
theorem decodeOrPanic_eq : decodeOrPanic cbor src = some (decode cbor src) := by
  match src with
  | [] | [_] | [_, _] | [_, _, _] => rfl
  | b₀ :: b₁ :: b₂ :: b₃ :: body =>
    have whole : ¬ (b₀ :: b₁ :: b₂ :: b₃ :: body).length < 4 := by simp
    unfold decodeOrPanic decode
    rw [if_neg whole]
    simp only [List.getElem?_cons_zero, List.getElem?_cons_succ, Option.bind_eq_bind,
      Option.bind_some]
    split
    · rename_i short
      rw [subUsize, if_pos (Nat.le_of_lt short), Option.bind_some]
    · rename_i long
      have payload : fromLeBytes b₀ b₁ b₂ b₃ ≤ body.length := by
        simp only [List.length_cons] at long
        omega
      rw [advance, if_pos (by simp), Option.bind_some]
      change (splitTo body (fromLeBytes b₀ b₁ b₂ b₃)).bind _ = _
      rw [splitTo, if_pos payload, Option.bind_some]
      cases cbor.fromReader (body.take (fromLeBytes b₀ b₁ b₂ b₃)) <;> rfl

/-- A call leaves the buffer as it is, or takes one frame whether its payload decodes or not. -/
theorem decode_cases (cbor : Cbor) (src : List UInt8) :
    decode cbor src = (.ok none, src) ∨ ∃ header payload rest, src = header ++ payload ++ rest ∧
      header.length = 4 ∧ payload.length = headerLen header ∧
      decode cbor src = ((cbor.fromReader payload).map some, rest) := by
  match src with
  | [] | [_] | [_, _] | [_, _, _] => exact .inl rfl
  | b₀ :: b₁ :: b₂ :: b₃ :: body =>
    unfold decode
    by_cases short : (b₀ :: b₁ :: b₂ :: b₃ :: body).length < 4 + fromLeBytes b₀ b₁ b₂ b₃
    · exact .inl (if_pos short)
    · right
      refine ⟨[b₀, b₁, b₂, b₃], body.take (fromLeBytes b₀ b₁ b₂ b₃),
        body.drop (fromLeBytes b₀ b₁ b₂ b₃), ?_, rfl, ?_, ?_⟩
      · rw [List.append_assoc, List.take_append_drop]
        rfl
      · simp only [List.length_cons] at short
        rw [List.length_take, headerLen]
        omega
      · simp only [if_neg short]
        cases cbor.fromReader (body.take (fromLeBytes b₀ b₁ b₂ b₃)) <;> rfl

theorem decodeStep_frame {payload : List UInt8} (short : payload.length < 2 ^ 32) :
    decodeStep cbor (frame payload) = some (cbor.fromReader payload, []) := by
  refine decodeStep_eq_some_iff.mpr ⟨_, _, _, _, payload, ?_, (fromLeBytes_putU32Le short).symm, rfl⟩
  rw [List.append_nil]
  rfl

/-- However a stream of frames is cut into fragments, every payload is decoded for itself. -/
theorem feed_frames {payloads fragments : List (List UInt8)}
    (short : ∀ payload ∈ payloads, payload.length < 2 ^ 32)
    (cut : fragments.flatten = payloads.flatMap frame) :
    Incremental.feed (decoder cbor) [] fragments = (payloads.map cbor.fromReader, []) := by
  rw [Incremental.feed_eq_drain rfl, List.nil_append, cut, List.flatMap_def]
  apply Incremental.drain_flatten rfl
  clear cut
  induction payloads with
  | nil => exact .nil
  | cons payload payloads ih =>
    obtain ⟨here, short⟩ := List.forall_mem_cons.mp short
    exact .cons (decodeStep_frame here) (ih short)

/-- Bytes of any kind are read the same way however they are cut: two ways of cutting them give
the same results, messages and errors, and leave the same bytes. No call panics, and each leaves
the buffer or takes the four bytes of a header and as many as it says. So a payload that does not
decode does not move the frames after it. -/
theorem reads_frames (cbor : Cbor) :
    (∀ fragments fragments' : List (List UInt8), fragments.flatten = fragments'.flatten →
      Incremental.feed (decoder cbor) [] fragments =
        Incremental.feed (decoder cbor) [] fragments') ∧
    (∀ src, decodeOrPanic cbor src = some (decode cbor src)) ∧
    (∀ src, decode cbor src = (.ok none, src) ∨ ∃ header payload rest,
      src = header ++ payload ++ rest ∧ header.length = 4 ∧ payload.length = headerLen header ∧
        decode cbor src = ((cbor.fromReader payload).map some, rest)) ∧
    (∀ payloads fragments : List (List UInt8), (∀ payload ∈ payloads, payload.length < 2 ^ 32) →
      fragments.flatten = payloads.flatMap frame →
        Incremental.feed (decoder cbor) [] fragments = (payloads.map cbor.fromReader, [])) := by
  refine ⟨fun fragments fragments' same => ?_, fun _ => decodeOrPanic_eq, decode_cases cbor,
    fun _ _ => feed_frames⟩
  rw [Incremental.feed_eq_drain rfl, Incremental.feed_eq_drain rfl, same]

/-- A payload that does not decode, and a message after it, cut inside the headers. -/
theorem reads_frames_malformed :
    Incremental.feed (decoder sampleCbor) []
        [[1, 0], [0, 0, 0xFF, 52], [0, 0, 0] ++ sampleBytes] =
      ([.error (.cborDe ""), .ok sampleMessage], []) := by
  have read := (reads_frames sampleCbor).2.2.2 [[0xFF], sampleBytes]
    [[1, 0], [0, 0, 0xFF, 52], [0, 0, 0] ++ sampleBytes] (by decide) (by decide)
  rw [read]
  rfl

end StardustCodec

end Stardust
