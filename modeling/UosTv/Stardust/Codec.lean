import UosTv.Lib.Incremental
import UosTv.Stardust.Message

/-!
The wire codec (`codec.rs`): a four-byte little-endian length, then the CBOR encoding
of one message.

`ciborium` is a parameter. `decode` is the function of the source on a buffer: it
returns its result together with the buffer it leaves. `decoder` packages it as an
incremental decoder, so that reading a stream in fragments is `Incremental.feed`.
`usize` is 64 bits wide, so `4 + len` does not overflow.
-/

namespace Stardust

/-- `ciborium::into_writer` and `ciborium::from_reader` at `Message`. -/
structure Cbor where
  intoWriter : Message → Except Error (List UInt8)
  fromReader : List UInt8 → Except Error Message

/-- What the codec relies on: `ciborium` decodes what it encoded. -/
def Cbor.RoundTrips (cbor : Cbor) : Prop :=
  ∀ msg bytes, cbor.intoWriter msg = .ok bytes → cbor.fromReader bytes = .ok msg

/-- `BufMut::put_u32_le`. -/
def putU32Le (n : Nat) : List UInt8 :=
  [UInt8.ofNat n, UInt8.ofNat (n / 256), UInt8.ofNat (n / 65536), UInt8.ofNat (n / 16777216)]

/-- `u32::from_le_bytes`. -/
def fromLeBytes (b₀ b₁ b₂ b₃ : UInt8) : Nat :=
  b₀.toNat + 256 * b₁.toNat + 65536 * b₂.toNat + 16777216 * b₃.toNat

namespace StardustCodec

/-- `Encoder::encode`, appending to `dst`. The length is truncated to 32 bits. -/
def encode (cbor : Cbor) (item : Message) (dst : List UInt8) : Except Error (List UInt8) :=
  match cbor.intoWriter item with
  | .error e => .error e
  | .ok cborBytes =>
    let len := cborBytes.length % 2 ^ 32
    .ok (dst ++ putU32Le len ++ cborBytes)

/-- `Decoder::decode`: the result and the buffer left. -/
def decode (cbor : Cbor) (src : List UInt8) : Except Error (Option Message) × List UInt8 :=
  match src with
  | b₀ :: b₁ :: b₂ :: b₃ :: body =>
    let len := fromLeBytes b₀ b₁ b₂ b₃
    if src.length < 4 + len then (.ok none, src)
    else
      -- The header and the payload are consumed before the payload is decoded.
      match cbor.fromReader (body.take len) with
      | .error e => (.error e, body.drop len)
      | .ok msg => (.ok (some msg), body.drop len)
  | _ => (.ok none, src)

/-- Encoding a list of messages one after another into one buffer. -/
def encodeAll (cbor : Cbor) (msgs : List Message) : Except Error (List UInt8) :=
  msgs.foldlM (fun dst msg => encode cbor msg dst) []

/-- One call of `decode` as a step of an incremental decoder: `Ok(None)` waits, a
message or an error is a result. -/
def decodeStep (cbor : Cbor) (src : List UInt8) : Option (Except Error Message × List UInt8) :=
  match decode cbor src with
  | (.ok none, _) => none
  | (.ok (some msg), rest) => some (.ok msg, rest)
  | (.error e, rest) => some (.error e, rest)

/-! ### One frame -/

theorem fromLeBytes_putU32Le {n : Nat} (small : n < 2 ^ 32) :
    fromLeBytes (UInt8.ofNat n) (UInt8.ofNat (n / 256)) (UInt8.ofNat (n / 65536))
      (UInt8.ofNat (n / 16777216)) = n := by
  simp only [fromLeBytes, UInt8.toNat_ofNat']
  omega

/-- A buffer with a whole header yields a result once the payload is there. -/
theorem decodeStep_header (cbor : Cbor) (b₀ b₁ b₂ b₃ : UInt8) (body : List UInt8) :
    decodeStep cbor (b₀ :: b₁ :: b₂ :: b₃ :: body) =
      if body.length < fromLeBytes b₀ b₁ b₂ b₃ then none
      else some (cbor.fromReader (body.take (fromLeBytes b₀ b₁ b₂ b₃)),
        body.drop (fromLeBytes b₀ b₁ b₂ b₃)) := by
  unfold decodeStep
  simp only [decode, List.length_cons]
  by_cases short : body.length < fromLeBytes b₀ b₁ b₂ b₃
  · rw [if_pos (by omega), if_pos short]
  · rw [if_neg (by omega), if_neg short]
    cases cbor.fromReader (body.take (fromLeBytes b₀ b₁ b₂ b₃)) <;> rfl

/-- A call yields a result exactly when the buffer holds a header and its payload; it
consumes these bytes whether the payload decodes or not. -/
theorem decodeStep_eq_some_iff {cbor : Cbor} {src rest : List UInt8}
    {r : Except Error Message} :
    decodeStep cbor src = some (r, rest) ↔
      ∃ b₀ b₁ b₂ b₃ payload, src = b₀ :: b₁ :: b₂ :: b₃ :: (payload ++ rest) ∧
        payload.length = fromLeBytes b₀ b₁ b₂ b₃ ∧ r = cbor.fromReader payload := by
  constructor
  · intro taken
    match src with
    | [] | [_] | [_, _] | [_, _, _] => cases taken
    | b₀ :: b₁ :: b₂ :: b₃ :: body =>
      rw [decodeStep_header] at taken
      split_ifs at taken with short
      cases taken
      refine ⟨b₀, b₁, b₂, b₃, _, by rw [List.take_append_drop], ?_, rfl⟩
      rw [List.length_take]
      omega
  · rintro ⟨b₀, b₁, b₂, b₃, payload, rfl, length, rfl⟩
    have whole : ¬ (payload ++ rest).length < fromLeBytes b₀ b₁ b₂ b₃ := by
      rw [List.length_append]
      omega
    rw [decodeStep_header, if_neg whole, List.take_left' length, List.drop_left' length]

/-- The codec as an incremental decoder. -/
def decoder (cbor : Cbor) : Incremental.Decoder UInt8 (Except Error Message) where
  step := decodeStep cbor
  shrinks := by
    intro buf r rest taken
    obtain ⟨b₀, b₁, b₂, b₃, payload, rfl, -, -⟩ := decodeStep_eq_some_iff.mp taken
    simp only [List.length_cons, List.length_append]
    omega
  stable := by
    intro buf r rest more taken
    obtain ⟨b₀, b₁, b₂, b₃, payload, rfl, length, rfl⟩ := decodeStep_eq_some_iff.mp taken
    exact decodeStep_eq_some_iff.mpr
      ⟨b₀, b₁, b₂, b₃, payload, by simp [List.append_assoc], length, rfl⟩

/-- An encoded message is one whole frame. -/
theorem decodeStep_encoded {cbor : Cbor} (roundTrips : cbor.RoundTrips) {msg : Message}
    {bytes : List UInt8} (encoded : cbor.intoWriter msg = .ok bytes)
    (short : bytes.length < 2 ^ 32) :
    decodeStep cbor (putU32Le bytes.length ++ bytes) = some (.ok msg, []) := by
  refine decodeStep_eq_some_iff.mpr ⟨_, _, _, _, bytes, ?_, (fromLeBytes_putU32Le short).symm,
    (roundTrips msg bytes encoded).symm⟩
  rw [List.append_nil]
  rfl

/-! ### Streams of frames -/

/-- The frames that `encodeAll` writes: one piece for each message, each a whole frame. -/
theorem encodeAll_pieces {cbor : Cbor} (roundTrips : cbor.RoundTrips) {msgs : List Message}
    (short : ∀ msg ∈ msgs, ∃ bytes, cbor.intoWriter msg = .ok bytes ∧ bytes.length < 2 ^ 32) :
    ∃ pieces, encodeAll cbor msgs = .ok pieces.flatten ∧
      List.Forall₂ (fun piece r => decodeStep cbor piece = some (r, [])) pieces
        (msgs.map .ok) := by
  suffices ∀ dst, ∃ pieces,
      msgs.foldlM (fun dst msg => encode cbor msg dst) dst = .ok (dst ++ pieces.flatten) ∧
        List.Forall₂ (fun piece r => decodeStep cbor piece = some (r, [])) pieces
          (msgs.map .ok) from this []
  induction msgs with
  | nil => exact fun dst => ⟨[], by rw [List.flatten_nil, List.append_nil]; rfl, .nil⟩
  | cons msg msgs ih =>
    intro dst
    obtain ⟨bytes, encoded, length⟩ := short msg List.mem_cons_self
    obtain ⟨pieces, written, whole⟩ := ih (fun m mem => short m (List.mem_cons_of_mem _ mem))
      (dst ++ (putU32Le bytes.length ++ bytes))
    refine ⟨(putU32Le bytes.length ++ bytes) :: pieces, ?_,
      .cons (decodeStep_encoded roundTrips encoded length) whole⟩
    have first : encode cbor msg dst = .ok (dst ++ (putU32Le bytes.length ++ bytes)) := by
      unfold encode
      simp only [encoded, Nat.mod_eq_of_lt length, List.append_assoc]
    calc (msg :: msgs).foldlM (fun dst msg => encode cbor msg dst) dst
        = msgs.foldlM (fun dst msg => encode cbor msg dst)
            (dst ++ (putU32Le bytes.length ++ bytes)) := by
          rw [List.foldlM_cons, first]
          rfl
      _ = .ok (dst ++ ((putU32Le bytes.length ++ bytes) :: pieces).flatten) := by
          rw [written, List.flatten_cons, List.append_assoc]

/-- **Reading in fragments.** Messages with encodings below 4 GiB are written without
an error, and however the bytes are cut into fragments, decoding after each fragment
until `Ok(None)` yields exactly the messages, in order, and leaves an empty buffer. -/
theorem decode_fragments (cbor : Cbor) (roundTrips : cbor.RoundTrips) (msgs : List Message)
    (short : ∀ msg ∈ msgs, ∃ bytes, cbor.intoWriter msg = .ok bytes ∧ bytes.length < 2 ^ 32) :
    ∃ wire, encodeAll cbor msgs = .ok wire ∧
      ∀ fragments : List (List UInt8), fragments.flatten = wire →
        Incremental.feed (decoder cbor) [] fragments = (msgs.map .ok, []) := by
  obtain ⟨pieces, written, whole⟩ := encodeAll_pieces roundTrips short
  refine ⟨pieces.flatten, written, fun fragments cut => ?_⟩
  rw [Incremental.feed_eq_drain rfl, List.nil_append, cut]
  exact Incremental.drain_flatten rfl whole

/-- A message and its CBOR encoding: a map of the six fields, the id as a byte string. -/
def sampleMessage : Message := Message.new ⟨0, 0⟩ "a"

def sampleBytes : List UInt8 :=
  [0xA6, 0x62, 0x69, 0x64, 0x50, 0, 0, 0, 0, 0, 0, 0, 0, 0, 0, 0, 0, 0, 0, 0, 0,
    0x63, 0x73, 0x72, 0x63, 0x60, 0x63, 0x64, 0x73, 0x74, 0x60,
    0x66, 0x6D, 0x65, 0x74, 0x68, 0x6F, 0x64, 0x61, 0x61,
    0x66, 0x70, 0x61, 0x72, 0x61, 0x6D, 0x73, 0x80, 0x62, 0x74, 0x73, 0x00]

/-- `ciborium` on the sample message. -/
def sampleCbor : Cbor where
  intoWriter msg := if msg = sampleMessage then .ok sampleBytes else .error (.cbor "")
  fromReader bytes := if bytes = sampleBytes then .ok sampleMessage else .error (.cborDe "")

theorem decode_fragments_sample :
    ∃ wire, encodeAll sampleCbor [sampleMessage, sampleMessage] = .ok wire ∧
      ∀ fragments : List (List UInt8), fragments.flatten = wire →
        Incremental.feed (decoder sampleCbor) [] fragments =
          ([.ok sampleMessage, .ok sampleMessage], []) := by
  refine decode_fragments sampleCbor ?_ [sampleMessage, sampleMessage] ?_
  · intro msg bytes encoded
    simp only [sampleCbor] at encoded ⊢
    split_ifs at encoded with same
    cases encoded
    rw [if_pos rfl, same]
  · intro msg mem
    obtain rfl : msg = sampleMessage := by simpa using mem
    exact ⟨sampleBytes, rfl, by decide⟩

end StardustCodec

end Stardust
