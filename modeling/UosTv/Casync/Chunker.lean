import Mathlib.Data.UInt
import UosTv.Rust.Hex

/-!
Chunks of a byte string (`casync-rs/src/chunker.rs`).

A string is cut into slices of a fixed size, or where a rolling hash of the bytes since the
last cut has zeros under a mask. Either way the chunks, put together, are the string
(`data_of_chunkBytes`). SHA-256 is a given function.
-/

namespace Casync

open Rust

/-- `ChunkHash`: 32 bytes. -/
structure ChunkHash where
  bytes : Bytes
  length : bytes.length = 32
deriving DecidableEq

theorem length_padded (data : Bytes) : ((data ++ List.replicate 32 0).take 32).length = 32 := by
  rw [List.length_take_of_le]
  rw [List.length_append, List.length_replicate]
  exact Nat.le_add_left _ _

structure Chunk where
  offset : UInt64
  size : UInt32
  data : Bytes
  hash : ChunkHash
deriving DecidableEq

/-- `Chunk::new`. The size is truncated to a `u32`. -/
def Chunk.new (sha256 : Bytes → ChunkHash) (offset : UInt64) (data : Bytes) : Chunk where
  offset := offset
  size := .ofNat data.length
  data := data
  hash := sha256 data

/-- A chunk as it is handed over: its hash and its bytes. -/
def Chunk.labelled (c : Chunk) : ChunkHash × Bytes := (c.hash, c.data)

inductive ChunkingStrategy where
  | fixed (size : Nat)
  | gearHash (minSize maxSize : Nat) (mask : UInt64)
deriving DecidableEq, Repr

/-- `GEAR_TABLE`. -/
def gearTable (byte : UInt8) : UInt64 := byte.toUInt64 * 0x9E3779B97F4A7C15

/-- `slice::chunks`, for a size that is not zero. -/
def slices (size : Nat) : Nat → Bytes → List Bytes
  | 0, _ => []
  | _ + 1, [] => []
  | fuel + 1, data => data.take size :: slices size fuel (data.drop size)

/-- The loop of `chunk_fixed`. -/
def fixedFrom (sha256 : Bytes → ChunkHash) (offset : UInt64) : List Bytes → List Chunk
  | [] => []
  | slice :: rest =>
    Chunk.new sha256 offset slice :: fixedFrom sha256 (offset + .ofNat slice.length) rest

/-- `chunk_fixed`. Slices of size zero panic, which is `none`. -/
def chunkFixed (sha256 : Bytes → ChunkHash) (data : Bytes) (chunkSize : Nat) :
    Option (List Chunk) :=
  if chunkSize = 0 then none else some (fixedFrom sha256 0 (slices chunkSize data.length data))

/-- The loop of `chunk_gear` over the bytes that are left. `current` are those since the last
cut, which was at `chunkStart`. -/
def gearFrom (sha256 : Bytes → ChunkHash) (minSize maxSize : Nat) (mask : UInt64)
    (chunkStart : Nat) (hash : UInt64) (current : Bytes) : Bytes → List Chunk
  | [] => if current = [] then [] else [Chunk.new sha256 (.ofNat chunkStart) current]
  | byte :: rest =>
    let hash := (hash <<< 1) + gearTable byte
    let current := current ++ [byte]
    let isBoundary := hash &&& mask = 0 ∧ minSize ≤ current.length
    let forced := maxSize ≤ current.length
    if isBoundary ∨ forced then
      Chunk.new sha256 (.ofNat chunkStart) current ::
        gearFrom sha256 minSize maxSize mask (chunkStart + current.length) 0 [] rest
    else gearFrom sha256 minSize maxSize mask chunkStart hash current rest

/-- `chunk_gear`. -/
def chunkGear (sha256 : Bytes → ChunkHash) (data : Bytes) (minSize maxSize : Nat) (mask : UInt64) :
    List Chunk :=
  gearFrom sha256 minSize maxSize mask 0 0 [] data

/-- `Chunker::chunk_bytes`. -/
def chunkBytes (sha256 : Bytes → ChunkHash) (strategy : ChunkingStrategy) (data : Bytes) :
    Option (List Chunk) :=
  match strategy with
  | .fixed size => chunkFixed sha256 data size
  | .gearHash minSize maxSize mask => some (chunkGear sha256 data minSize maxSize mask)

/-! ### The chunks put together -/

variable {sha256 : Bytes → ChunkHash} {strategy : ChunkingStrategy} {data : Bytes}
  {chunks : List Chunk}

/-- The bytes of chunks, one after the other. -/
def content (chunks : List Chunk) : Bytes := chunks.flatMap (·.data)

/-- The size and the hash of a chunk are those of its bytes. -/
def Chunk.Made (sha256 : Bytes → ChunkHash) (c : Chunk) : Prop :=
  ∃ offset data, c = Chunk.new sha256 offset data

theorem Chunk.Made.hash_eq {c : Chunk} (made : c.Made sha256) : c.hash = sha256 c.data := by
  obtain ⟨offset, data, rfl⟩ := made
  rfl

theorem Chunk.Made.size_le {c : Chunk} (made : c.Made sha256) : c.size.toNat ≤ c.data.length := by
  obtain ⟨offset, data, rfl⟩ := made
  exact Nat.mod_le _ _

theorem flatten_slices {size fuel : Nat} (positive : size ≠ 0) (enough : data.length ≤ fuel) :
    (slices size fuel data).flatten = data := by
  induction fuel generalizing data with
  | zero => rw [List.length_eq_zero_iff.mp (Nat.le_zero.mp enough), slices, List.flatten_nil]
  | succ fuel ih =>
    cases data with
    | nil => rfl
    | cons byte data =>
      have shorter : ((byte :: data).drop size).length ≤ fuel := by
        rw [List.length_cons] at enough
        rw [List.length_drop, List.length_cons]
        omega
      change ((byte :: data).take size :: slices size fuel ((byte :: data).drop size)).flatten = _
      rw [List.flatten_cons, ih shorter, List.take_append_drop]

theorem content_fixedFrom (offset : UInt64) (slices : List Bytes) :
    content (fixedFrom sha256 offset slices) = slices.flatten := by
  induction slices generalizing offset with
  | nil => rfl
  | cons slice slices ih =>
    rw [List.flatten_cons, ← ih (offset + .ofNat slice.length)]
    rfl

theorem content_gearFrom (minSize maxSize : Nat) (mask : UInt64) (chunkStart : Nat) (hash : UInt64)
    (current : Bytes) :
    content (gearFrom sha256 minSize maxSize mask chunkStart hash current data) = current ++ data := by
  induction data generalizing chunkStart hash current with
  | nil =>
    rw [gearFrom]
    split
    · simp [content, *]
    · simp [content, Chunk.new]
  | cons byte data ih =>
    rw [gearFrom]
    split
    · rw [content, List.flatMap_cons]
      exact (congrArg _ (ih _ _ _)).trans (by simp [Chunk.new])
    · rw [ih]
      simp

theorem data_of_chunkBytes (chunked : chunkBytes sha256 strategy data = some chunks) :
    content chunks = data := by
  cases strategy with
  | fixed size =>
    simp only [chunkBytes, chunkFixed] at chunked
    split at chunked
    · cases chunked
    · cases chunked
      rw [content_fixedFrom, flatten_slices ‹_› (Nat.le_refl _)]
  | gearHash minSize maxSize mask =>
    cases chunked
    exact content_gearFrom minSize maxSize mask 0 0 []

theorem made_fixedFrom (offset : UInt64) (slices : List Bytes) :
    ∀ c ∈ fixedFrom sha256 offset slices, c.Made sha256 := by
  induction slices generalizing offset with
  | nil => exact List.forall_mem_nil _
  | cons slice slices ih => exact List.forall_mem_cons.mpr ⟨⟨_, _, rfl⟩, ih _⟩

theorem made_gearFrom (minSize maxSize : Nat) (mask : UInt64) (chunkStart : Nat) (hash : UInt64)
    (current : Bytes) :
    ∀ c ∈ gearFrom sha256 minSize maxSize mask chunkStart hash current data, c.Made sha256 := by
  induction data generalizing chunkStart hash current with
  | nil =>
    rw [gearFrom]
    split
    · exact List.forall_mem_nil _
    · exact List.forall_mem_singleton.mpr ⟨_, _, rfl⟩
  | cons byte data ih =>
    rw [gearFrom]
    split
    · exact List.forall_mem_cons.mpr ⟨⟨_, _, rfl⟩, ih _ _ _⟩
    · exact ih _ _ _

/-- Every chunk is made of its bytes. -/
theorem made_of_chunkBytes (chunked : chunkBytes sha256 strategy data = some chunks) :
    ∀ c ∈ chunks, c.Made sha256 := by
  cases strategy with
  | fixed size =>
    simp only [chunkBytes, chunkFixed] at chunked
    split at chunked
    · cases chunked
    · cases chunked
      exact made_fixedFrom _ _
  | gearHash minSize maxSize mask =>
    cases chunked
    exact made_gearFrom _ _ _ _ _ _

end Casync
