import UosTv.Casync.Chunker
import UosTv.Rust.Collections
import UosTv.Rust.Numbers

/-!
The index of a chunked file (`casync-rs/src/index.rs`).

An index lists where each chunk of a file lies and its hash. The difference of two indexes are
the hashes that only the new one has; a file is verified against an index chunk by chunk, at
the offsets that the index gives. Reading CBOR is a given function.
-/

namespace Casync

open Rust

structure ChunkEntry where
  offset : UInt64
  size : UInt32
  sha256 : ChunkHash
deriving DecidableEq

structure CaiBxIndex where
  magic : String
  version : UInt32
  chunkSizeTarget : UInt32
  totalSize : UInt64
  chunks : List ChunkEntry
deriving DecidableEq

/-- The errors of this crate that the index ends with. -/
inductive Error where
  | hashMismatch (offset : UInt64) (expected actual : String)
  | invalidIndex (cause : String)
  | cbor (cause : String)
deriving DecidableEq, Repr

def caibxMagic : String := "CAIBX"

def caibxVersion : UInt32 := 1

namespace CaiBxIndex

/-- `from_chunks`. The sum of the sizes is one of `u64`; it does not exceed the length of the
bytes that the chunks hold. -/
def fromChunks (chunks : List Chunk) (chunkSizeTarget : UInt32) : CaiBxIndex where
  magic := caibxMagic
  version := caibxVersion
  chunkSizeTarget := chunkSizeTarget
  totalSize := (chunks.map fun c => c.size.toUInt64).sum
  chunks := chunks.map fun c => { offset := c.offset, size := c.size, sha256 := c.hash }

/-- The loop of `from_bytes` over neighbours. -/
def checkSorted : List ChunkEntry → Except Error Unit
  | first :: second :: rest =>
    if second.offset ≤ first.offset then .error (.invalidIndex "Chunks not sorted by offset")
    else checkSorted (second :: rest)
  | _ => .ok ()

/-- The checks of `from_bytes`. -/
def validate (index : CaiBxIndex) : Except Error Unit :=
  if index.magic ≠ caibxMagic then .error (.invalidIndex ("Invalid magic: " ++ index.magic))
  else if index.version ≠ caibxVersion then
    .error (.invalidIndex ("Unsupported version: " ++ toString index.version))
  else checkSorted index.chunks

/-- `from_bytes`. `fromReader` reads CBOR. -/
def fromBytes (fromReader : Bytes → Except String CaiBxIndex) (data : Bytes) :
    Except Error CaiBxIndex := do
  let index ← (fromReader data).mapError .cbor
  index.validate
  pure index

/-- `diff`. -/
def diff (old new : CaiBxIndex) : HashSet ChunkHash :=
  (HashSet.collect (new.chunks.map (·.sha256))).difference
    (HashSet.collect (old.chunks.map (·.sha256)))

/-- The loop of `verify`. It panics, which is `none`, where the end of a chunk overflows and
overflows are checked, and where the slice ends before it starts. -/
def verifyEntries (sha256 : Bytes → ChunkHash) (checks : Bool) (data : Bytes) :
    List ChunkEntry → Option (Except Error Unit)
  | [] => some (.ok ())
  | entry :: rest =>
    match addU64 checks entry.offset entry.size.toUInt64 with
    | none => none
    | some stop =>
      if data.length < stop.toNat then
        some (.error (.invalidIndex ("Chunk at offset " ++ toString entry.offset ++
          " extends beyond data length " ++ toString data.length)))
      else if stop < entry.offset then none
      else
        let hash := sha256 ((data.drop entry.offset.toNat).take (stop.toNat - entry.offset.toNat))
        if hash ≠ entry.sha256 then
          some (.error (.hashMismatch entry.offset (hexEncode entry.sha256.bytes)
            (hexEncode hash.bytes)))
        else verifyEntries sha256 checks data rest

/-- `verify`. -/
def verify (index : CaiBxIndex) (sha256 : Bytes → ChunkHash) (checks : Bool) (data : Bytes) :
    Option (Except Error Unit) :=
  verifyEntries sha256 checks data index.chunks

/-! ### Indexes of chunks -/

variable {chunks old new : List Chunk} {target target' : UInt32} {hash : ChunkHash}

theorem mem_diff {old new : CaiBxIndex} :
    hash ∈ diff old new ↔ hash ∈ new.chunks.map (·.sha256) ∧ hash ∉ old.chunks.map (·.sha256) := by
  rw [diff, HashSet.mem_difference, HashSet.mem_collect, HashSet.mem_collect]

@[simp] theorem hashes_fromChunks :
    (fromChunks chunks target).chunks.map (·.sha256) = chunks.map (·.hash) := by
  simp [fromChunks]

end CaiBxIndex

/-! ### Verifying entry by entry -/

/-- The bytes at the offset of an entry. -/
def ChunkEntry.piece (entry : ChunkEntry) (data : Bytes) : Bytes :=
  (data.drop entry.offset.toNat).take entry.size.toNat

/-- The data has the chunk at the offset of the entry. -/
structure ChunkEntry.Matches (entry : ChunkEntry) (sha256 : Bytes → ChunkHash) (data : Bytes) : Prop where
  fits : entry.offset.toNat + entry.size.toNat < 2 ^ 64
  within : entry.offset.toNat + entry.size.toNat ≤ data.length
  hash : sha256 (entry.piece data) = entry.sha256

variable {sha256 : Bytes → ChunkHash} {checks : Bool} {data : Bytes} {entry : ChunkEntry}
  {entries : List ChunkEntry}

/-- When the end of a chunk does not overflow, the rest is gone through if the chunk matches. -/
theorem verifyEntries_cons (fits : entry.offset.toNat + entry.size.toNat < 2 ^ 64) :
    (entry.Matches sha256 data ∧ CaiBxIndex.verifyEntries sha256 checks data (entry :: entries) =
      CaiBxIndex.verifyEntries sha256 checks data entries) ∨
    (¬ entry.Matches sha256 data ∧
      ∃ e, CaiBxIndex.verifyEntries sha256 checks data (entry :: entries) = some (.error e)) := by
  have noOverflow : entry.offset.toNat + entry.size.toUInt64.toNat < 2 ^ 64 := by
    rwa [UInt32.toNat_toUInt64]
  have stop := toNat_add_of_lt noOverflow
  rw [UInt32.toNat_toUInt64] at stop
  have ordered : ¬ entry.offset + entry.size.toUInt64 < entry.offset := by
    rw [UInt64.lt_iff_toNat_lt, stop]
    omega
  rw [CaiBxIndex.verifyEntries, addU64_of_lt noOverflow]
  simp only [stop, if_neg ordered, Nat.add_sub_cancel_left]
  by_cases beyond : data.length < entry.offset.toNat + entry.size.toNat
  · rw [if_pos beyond]
    exact .inr ⟨fun matching => Nat.not_lt_of_le matching.within beyond, _, rfl⟩
  · rw [if_neg beyond]
    by_cases same : sha256 (entry.piece data) = entry.sha256
    · exact .inl ⟨⟨fits, Nat.le_of_not_lt beyond, same⟩, if_neg fun differs => differs same⟩
    · exact .inr ⟨fun matching => same matching.hash, _, if_pos same⟩

theorem verifyEntries_cons_eq_ok (fits : entry.offset.toNat + entry.size.toNat < 2 ^ 64) :
    CaiBxIndex.verifyEntries sha256 checks data (entry :: entries) = some (.ok ()) ↔
      entry.Matches sha256 data ∧
        CaiBxIndex.verifyEntries sha256 checks data entries = some (.ok ()) := by
  rcases @verifyEntries_cons sha256 checks data entry entries fits with
    ⟨matching, rest⟩ | ⟨differs, e, ends⟩
  · rw [rest, and_iff_right matching]
  · rw [ends]
    exact iff_of_false (by simp) fun both => differs both.1

end Casync
