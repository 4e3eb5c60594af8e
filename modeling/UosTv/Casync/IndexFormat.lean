import UosTv.Casync.Delta
import UosTv.Casync.Tiling
import UosTv.Rust.Result
import UosTv.Serde.Ciborium

/-!
The `.caibx` format: an index as a CBOR map, with the hashes as hexadecimal texts.

What is written of an index is read back, and accepted if the index is (`fromBytes_toBytes`).
`from_bytes` asks for offsets that grow, which those of chunks do because no chunk is empty
(`index_round_trips`).
-/

namespace Casync

open Ciborium Rust Segments

/-- What reading ends with when the bytes are CBOR but no index. -/
inductive DeError where
  | invalidType
  | missingField (name : String)
  | duplicateField (name : String)
  | hex (cause : FromHexError)
  | custom (cause : String)
deriving DecidableEq, Repr

/-! ### Reading fields -/

/-- A field, by its name. -/
def named : Item × Item → Except DeError (String × Item)
  | (.text name, item) => .ok (name, item)
  | _ => .error .invalidType

/-- The fields of a structure. -/
def fieldsOf : Item → Except DeError (List (String × Item))
  | .map entries => entries.mapM named
  | _ => .error .invalidType

/-- One field. Fields with other names are skipped. -/
def field (fields : List (String × Item)) (name : String) : Except DeError Item :=
  match fields.filter (·.1 = name) with
  | [] => .error (.missingField name)
  | [(_, item)] => .ok item
  | _ => .error (.duplicateField name)

def readU64 : Item → Except DeError UInt64
  | .unsigned n => .ok n
  | _ => .error .invalidType

def readU32 : Item → Except DeError UInt32
  | .unsigned n => if n.toNat < 2 ^ 32 then .ok n.toUInt32 else .error .invalidType
  | _ => .error .invalidType

def readText : Item → Except DeError String
  | .text s => .ok s
  | _ => .error .invalidType

def readArray : Item → Except DeError (List Item)
  | .array items => .ok items
  | _ => .error .invalidType

namespace HexSerde

/-- `hex_serde::serialize`. -/
def serialize (hash : ChunkHash) : Item := .text (hexEncode hash.bytes)

/-- `hex_serde::deserialize`. -/
def deserialize (item : Item) : Except DeError ChunkHash := do
  let hexStr ← readText item
  let bytes ← (hexDecode (asBytes hexStr)).mapError .hex
  if length : bytes.length = 32 then pure ⟨bytes, length⟩
  else throw (.custom ("Expected 32 bytes, got " ++ toString bytes.length))

end HexSerde

namespace ChunkEntry

def serialize (entry : ChunkEntry) : Item :=
  record [("offset", .unsigned entry.offset), ("size", .unsigned entry.size.toUInt64),
    ("sha256", HexSerde.serialize entry.sha256)]

def deserialize (item : Item) : Except DeError ChunkEntry := do
  let fields ← fieldsOf item
  let offset ← field fields "offset" >>= readU64
  let size ← field fields "size" >>= readU32
  let sha256 ← field fields "sha256" >>= HexSerde.deserialize
  pure { offset, size, sha256 }

end ChunkEntry

namespace CaiBxIndex

def serialize (index : CaiBxIndex) : Item :=
  record [("magic", .text index.magic), ("version", .unsigned index.version.toUInt64),
    ("chunk_size_target", .unsigned index.chunkSizeTarget.toUInt64),
    ("total_size", .unsigned index.totalSize),
    ("chunks", .array (index.chunks.map ChunkEntry.serialize))]

def deserialize (item : Item) : Except DeError CaiBxIndex := do
  let fields ← fieldsOf item
  let magic ← field fields "magic" >>= readText
  let version ← field fields "version" >>= readU32
  let chunkSizeTarget ← field fields "chunk_size_target" >>= readU32
  let totalSize ← field fields "total_size" >>= readU64
  let chunks ← field fields "chunks" >>= readArray
  let chunks ← chunks.mapM ChunkEntry.deserialize
  pure { magic, version, chunkSizeTarget, totalSize, chunks }

/-- `to_bytes`. Writing to a vector does not fail. -/
def toBytes (index : CaiBxIndex) : Bytes := encode index.serialize

/-- `ciborium::from_reader` at an index. -/
def ofReader (reader : Reader) (bytes : Bytes) : Except String CaiBxIndex := do
  let item ← reader.fromReader bytes
  (deserialize item).mapError fun e => reprStr e

end CaiBxIndex

/-! ### What is written is read -/

variable {reader : Reader} {index : CaiBxIndex} {entry : ChunkEntry}

@[simp] theorem readU32_toUInt64 (n : UInt32) : readU32 (.unsigned n.toUInt64) = .ok n := by
  have small : n.toUInt64.toNat < 2 ^ 32 := by
    rw [UInt32.toNat_toUInt64]
    exact n.toNat_lt
  rw [readU32, if_pos small, UInt32.toUInt32_toUInt64]

@[simp] theorem HexSerde.deserialize_serialize (hash : ChunkHash) :
    HexSerde.deserialize (HexSerde.serialize hash) = .ok hash := by
  have read : readText (HexSerde.serialize hash) = .ok (hexEncode hash.bytes) := rfl
  rw [HexSerde.deserialize, read, ok_bind, hexDecode_hexEncode]
  exact dif_pos hash.length

@[simp] theorem fieldsOf_record (fields : List (String × Item)) :
    fieldsOf (record fields) = .ok fields := by
  change (fields.map fun f => (Item.text f.1, f.2)).mapM named = .ok fields
  induction fields with
  | nil => rfl
  | cons f fields ih =>
    rw [List.map_cons, List.mapM_cons, ih]
    rfl

@[simp] theorem ChunkEntry.deserialize_serialize (entry : ChunkEntry) :
    ChunkEntry.deserialize entry.serialize = .ok entry := by
  simp [ChunkEntry.deserialize, ChunkEntry.serialize, field, readU64]

theorem mapM_deserialize (entries : List ChunkEntry) :
    entries.mapM (ChunkEntry.deserialize ∘ ChunkEntry.serialize) = .ok entries := by
  induction entries with
  | nil => rfl
  | cons entry entries ih => simp [ih]

@[simp] theorem CaiBxIndex.deserialize_serialize (index : CaiBxIndex) :
    CaiBxIndex.deserialize index.serialize = .ok index := by
  simp [CaiBxIndex.deserialize, CaiBxIndex.serialize, field, readText, readU64, readArray,
    mapM_deserialize]

/-! ### What is accepted -/

/-- The offsets grow. -/
def Ascending (entries : List ChunkEntry) : Prop := entries.Pairwise fun e e' => e.offset < e'.offset

theorem checkSorted_eq_ok {entries : List ChunkEntry} :
    CaiBxIndex.checkSorted entries = .ok () ↔ Ascending entries := by
  unfold Ascending
  induction entries with
  | nil => exact iff_of_true rfl .nil
  | cons first rest ih =>
    cases rest with
    | nil => exact iff_of_true rfl (List.pairwise_singleton _ _)
    | cons second rest =>
      rw [CaiBxIndex.checkSorted]
      split
      · rename_i below
        apply iff_of_false
        · rintro ⟨⟩
        · intro ascending
          exact UInt64.not_lt.mpr below (List.rel_of_pairwise_cons ascending List.mem_cons_self)
      · rename_i above
        have step : first.offset < second.offset := UInt64.not_le.mp above
        rw [ih]
        refine ⟨fun ascending => List.pairwise_cons.mpr ⟨fun e mem => ?_, ascending⟩, List.Pairwise.of_cons⟩
        rcases List.mem_cons.mp mem with rfl | later
        · exact step
        · exact UInt64.lt_trans step (List.rel_of_pairwise_cons ascending later)

theorem validate_eq_ok : index.validate = .ok () ↔
    index.magic = caibxMagic ∧ index.version = caibxVersion ∧ Ascending index.chunks := by
  rw [CaiBxIndex.validate, ← checkSorted_eq_ok]
  by_cases magic : index.magic = caibxMagic
  · by_cases version : index.version = caibxVersion
    · simp [magic, version]
    · simp [magic, version]
  · simp [magic]

theorem fromBytes_eq_ok {fromReader : Bytes → Except String CaiBxIndex} {bytes : Bytes} :
    CaiBxIndex.fromBytes fromReader bytes = .ok index ↔
      fromReader bytes = .ok index ∧ index.validate = .ok () := by
  simp only [CaiBxIndex.fromBytes, bind_eq_ok, mapError_eq_ok, pure_eq_ok]
  constructor
  · rintro ⟨index, read, ⟨⟩, valid, rfl⟩
    exact ⟨read, valid⟩
  · rintro ⟨read, valid⟩
    exact ⟨index, read, (), valid, rfl⟩

/-! ### Written indexes are in memory -/

theorem inMemory_entry (entry : ChunkEntry) : InMemory entry.serialize := by
  have hash : InMemory (HexSerde.serialize entry.sha256) := by
    apply InMemory.text
    rw [length_asBytes_hexEncode, entry.sha256.length]
    decide
  apply inMemory_record (by simp)
  · simp only [List.forall_mem_cons]
    decide
  · simp [InMemory.unsigned, hash]

theorem levels_entry (entry : ChunkEntry) : levels entry.serialize ≤ 1 :=
  levels_record_le (by simp [levels, HexSerde.serialize])

theorem inMemory_index (magic : index.magic = caibxMagic) (short : index.chunks.length < 2 ^ 63) :
    InMemory index.serialize := by
  have text : InMemory (.text index.magic) := by
    rw [magic]
    exact .text (by decide)
  have chunks : InMemory (.array (index.chunks.map ChunkEntry.serialize)) :=
    .array (by rwa [List.length_map]) (List.forall_mem_map.mpr fun entry _ => inMemory_entry entry)
  apply inMemory_record (by simp)
  · simp only [List.forall_mem_cons]
    decide
  · simp [InMemory.unsigned, text, chunks]

theorem levels_index (index : CaiBxIndex) : levels index.serialize ≤ 3 := by
  have chunks : levelsItems (index.chunks.map ChunkEntry.serialize) ≤ 1 :=
    levelsItems_le (List.forall_mem_map.mpr fun entry _ => levels_entry entry)
  apply levels_record_le
  simp [levels, chunks]

/-- What is written of an index that is valid is read and accepted. -/
theorem fromBytes_toBytes (valid : index.validate = .ok ()) (short : index.chunks.length < 2 ^ 63) :
    CaiBxIndex.fromBytes (CaiBxIndex.ofReader reader) index.toBytes = .ok index := by
  have magic := (validate_eq_ok.mp valid).1
  have read := reader.fromReader_encode (inMemory_index magic short) ((levels_index index).trans (by decide))
  rw [fromBytes_eq_ok, CaiBxIndex.ofReader, CaiBxIndex.toBytes, read]
  simp [valid]

/-! ### Round trips -/

section RoundTrips

variable {sha256 : Bytes → ChunkHash} {segs : List Bytes} {start : Nat} {chunks : List Chunk}
  {target : UInt32}

theorem start_le_offset (filled : [] ∉ segs) (fits : start + segs.flatten.length < 2 ^ 64) :
    ∀ c ∈ placed sha256 start segs, start ≤ c.offset.toNat := by
  induction segs generalizing start with
  | nil => exact List.forall_mem_nil _
  | cons seg segs ih =>
    rw [List.mem_cons, not_or] at filled
    rw [List.flatten_cons, List.length_append] at fits
    rw [placed, List.forall_mem_cons]
    constructor
    · rw [toNat_offset_new (by omega)]
    · intro c mem
      exact (Nat.le_add_right _ _).trans (ih filled.2 (by omega) c mem)

/-- The offsets of chunks grow, since none of them is empty. -/
theorem ascending_placed (filled : [] ∉ segs) (fits : start + segs.flatten.length < 2 ^ 64) :
    (placed sha256 start segs).Pairwise fun c c' => c.offset < c'.offset := by
  induction segs generalizing start with
  | nil => exact .nil
  | cons seg segs ih =>
    rw [List.mem_cons, not_or] at filled
    rw [List.flatten_cons, List.length_append] at fits
    have some_byte := List.length_pos_of_ne_nil (Ne.symm filled.1)
    rw [placed, List.pairwise_cons]
    refine ⟨fun c mem => ?_, ih filled.2 (by omega)⟩
    have behind := start_le_offset filled.2 (by omega) c mem
    rw [UInt64.lt_iff_toNat_lt, toNat_offset_new (by omega)]
    omega

theorem length_le_flatten (filled : [] ∉ segs) : segs.length ≤ segs.flatten.length := by
  induction segs with
  | nil => exact Nat.zero_le _
  | cons seg segs ih =>
    rw [List.mem_cons, not_or] at filled
    have some_byte := List.length_pos_of_ne_nil (Ne.symm filled.1)
    have rest := ih filled.2
    rw [List.flatten_cons, List.length_append, List.length_cons]
    omega

theorem length_placed : (placed sha256 start segs).length = segs.length := by
  rw [← List.length_map (f := (·.data)), data_placed]

/-- The index of chunks is valid iff their offsets grow. -/
theorem validate_fromChunks : (CaiBxIndex.fromChunks chunks target).validate = .ok () ↔
    chunks.Pairwise fun c c' => c.offset < c'.offset := by
  rw [validate_eq_ok]
  have entries : Ascending (CaiBxIndex.fromChunks chunks target).chunks ↔
      chunks.Pairwise fun c c' => c.offset < c'.offset := List.pairwise_map
  rw [entries]
  exact (and_iff_right rfl).trans (and_iff_right rfl)

/-- The index of a string, that of any chunks whose offsets grow, and every index that has been
accepted: what is written of it is accepted, as the same index. -/
theorem index_round_trips :
    (∀ (strategy : ChunkingStrategy) (content : Bytes) (chunks : List Chunk) (target : UInt32),
      1 ≤ strategy.limit → strategy.limit < 2 ^ 32 → content.length < 2 ^ 63 →
      chunkBytes sha256 strategy content = some chunks →
      CaiBxIndex.fromBytes (CaiBxIndex.ofReader reader)
        (CaiBxIndex.fromChunks chunks target).toBytes = .ok (.fromChunks chunks target)) ∧
    (∀ (chunks : List Chunk) (target : UInt32),
      (chunks.Pairwise fun c c' => c.offset < c'.offset) → chunks.length < 2 ^ 63 →
      CaiBxIndex.fromBytes (CaiBxIndex.ofReader reader)
        (CaiBxIndex.fromChunks chunks target).toBytes = .ok (.fromChunks chunks target)) ∧
    ∀ (bytes : Bytes) (index : CaiBxIndex),
      CaiBxIndex.fromBytes (CaiBxIndex.ofReader reader) bytes = .ok index →
      index.chunks.length < 2 ^ 63 →
      CaiBxIndex.fromBytes (CaiBxIndex.ofReader reader) index.toBytes = .ok index := by
  have growing : ∀ (chunks : List Chunk) (target : UInt32),
      (chunks.Pairwise fun c c' => c.offset < c'.offset) → chunks.length < 2 ^ 63 →
      CaiBxIndex.fromBytes (CaiBxIndex.ofReader reader)
        (CaiBxIndex.fromChunks chunks target).toBytes = .ok (.fromChunks chunks target) := by
    intro chunks target ascending short
    apply fromBytes_toBytes (validate_fromChunks.mpr ascending)
    rwa [CaiBxIndex.fromChunks, List.length_map]
  refine ⟨?_, growing, ?_⟩
  · intro strategy content chunks target positive small inMemory chunked
    obtain rfl := Option.some.inj (chunked.symm.trans (chunkBytes_eq positive))
    have whole := flatten_segments strategy.cuts content
    have filled := not_mem_segments strategy.cuts content
    have count := length_le_flatten filled
    rw [whole] at count
    apply growing
    · exact ascending_placed filled (by rw [whole]; omega)
    · rw [length_placed]
      omega
  · intro bytes index accepted short
    exact fromBytes_toBytes (fromBytes_eq_ok.mp accepted).2 short

theorem index_round_trips_sample :
    CaiBxIndex.fromBytes (CaiBxIndex.ofReader definiteReader) (sampleIndex [1, 2, 3]).toBytes =
      .ok (sampleIndex [1, 2, 3]) := by
  have chunked : chunkBytes sampleHash (.fixed 2) [1, 2, 3] = some (sampleChunks [1, 2, 3]) := rfl
  obtain ⟨ofStrings, ofChunks, ofAccepted⟩ := @index_round_trips definiteReader sampleHash
  have written := ofStrings (.fixed 2) [1, 2, 3] _ 2 (by decide) (by decide) (by decide) chunked
  have again := ofChunks (sampleChunks [1, 2, 3]) 2 (by decide) (by decide)
  exact ofAccepted _ _ (written.trans (again.symm.trans written)) (by decide)

end RoundTrips

end Casync
