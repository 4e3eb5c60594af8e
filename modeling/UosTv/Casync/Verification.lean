import UosTv.Casync.Delta
import UosTv.Casync.Tiling

/-!
What `verify` accepts.

Each entry of the index must match the data at its own offset. Nothing is asked of the data
behind the last chunk: a file is accepted against the index of its beginning (`verify_exact_iff`).
-/

namespace Casync

open Rust Segments

/-- The entry of a chunk. -/
def Chunk.entry (c : Chunk) : ChunkEntry := { offset := c.offset, size := c.size, sha256 := c.hash }

variable {sha256 : Bytes → ChunkHash} {checks : Bool} {strategy : ChunkingStrategy}
  {content data : Bytes} {chunks : List Chunk} {segs : List Bytes} {start : Nat} {target : UInt32}

/-- The bytes that `verify` compares with a chunk have the hash of the chunk only if they are its
bytes. -/
def NoCollision (sha256 : Bytes → ChunkHash) (chunks : List Chunk) (data : Bytes) : Prop :=
  ∀ c ∈ chunks, sha256 (c.entry.piece data) = sha256 c.data → c.entry.piece data = c.data

theorem entry_new {seg : Bytes} (small : seg.length < 2 ^ 32) (fits : start < 2 ^ 64) :
    (Chunk.new sha256 (.ofNat start) seg).entry.offset.toNat = start ∧
      (Chunk.new sha256 (.ofNat start) seg).entry.size.toNat = seg.length := by
  constructor
  · have offset : (Chunk.new sha256 (.ofNat start) seg).offset.toNat = start := toNat_offset_new fits
    exact offset
  · have size : (Chunk.new sha256 (.ofNat start) seg).size.toNat = seg.length := toNat_size_new small
    exact size

/-- A chunk matches where its bytes stand. -/
theorem matches_new {seg : Bytes} (small : seg.length < 2 ^ 32) (filled : seg ≠ [])
    (fits : start + seg.length < 2 ^ 64)
    (noCollision : NoCollision sha256 [Chunk.new sha256 (.ofNat start) seg] data) :
    (Chunk.new sha256 (.ofNat start) seg).entry.Matches sha256 data ↔ seg <+: data.drop start := by
  obtain ⟨offset, size⟩ := @entry_new sha256 start seg small
    (Nat.lt_of_le_of_lt (Nat.le_add_right _ _) fits)
  have pieces : (Chunk.new sha256 (.ofNat start) seg).entry.piece data =
      (data.drop start).take seg.length := by
    rw [ChunkEntry.piece, offset, size]
  constructor
  · rintro ⟨-, -, hash⟩
    have same := noCollision _ List.mem_cons_self hash
    rw [pieces] at same
    rw [← show _ = seg from same]
    exact List.take_prefix _ _
  · intro isPrefix
    have length := isPrefix.length_le
    rw [List.length_drop] at length
    have some_byte := List.length_pos_of_ne_nil filled
    refine ⟨by rwa [offset, size], ?_, ?_⟩
    · rw [offset, size]
      omega
    · rw [pieces, ← List.prefix_iff_eq_take.mp isPrefix]
      rfl

/-- Chunks that are placed one behind the other are verified where their bytes stand. -/
theorem verifyEntries_placed (small : ∀ seg ∈ segs, seg.length < 2 ^ 32) (filled : [] ∉ segs)
    (fits : start + segs.flatten.length < 2 ^ 64)
    (noCollision : NoCollision sha256 (placed sha256 start segs) data) :
    CaiBxIndex.verifyEntries sha256 checks data ((placed sha256 start segs).map Chunk.entry) =
      some (.ok ()) ↔ segs.flatten <+: data.drop start := by
  induction segs generalizing start with
  | nil => exact iff_of_true rfl List.nil_prefix
  | cons seg segs ih =>
    obtain ⟨here, others⟩ := List.forall_mem_cons.mp small
    rw [List.mem_cons, not_or] at filled
    rw [List.flatten_cons, List.length_append] at fits
    obtain ⟨hereApart, othersApart⟩ := List.forall_mem_cons.mp noCollision
    have entryFits : (Chunk.new sha256 (.ofNat start) seg).entry.offset.toNat +
        (Chunk.new sha256 (.ofNat start) seg).entry.size.toNat < 2 ^ 64 := by
      obtain ⟨offset, size⟩ := @entry_new sha256 start seg here (by omega)
      omega
    rw [placed, List.map_cons, verifyEntries_cons_eq_ok entryFits,
      matches_new here (Ne.symm filled.1) (by omega) (List.forall_mem_singleton.mpr hereApart),
      ih others filled.2 (by omega) othersApart, List.flatten_cons]
    constructor
    · rintro ⟨⟨more, first⟩, rest⟩
      rw [← List.drop_drop, ← first, List.drop_left] at rest
      rw [← first]
      exact (List.prefix_append_right_inj seg).mpr rest
    · intro whole
      refine ⟨(List.prefix_append _ _).trans whole, ?_⟩
      obtain ⟨more, split⟩ := whole
      rw [← List.drop_drop, ← split, List.append_assoc, List.drop_left]
      exact List.prefix_append _ _

/-- Against the index of a string, what begins with the string is accepted, and nothing else. -/
theorem verify_eq_ok_iff (positive : 1 ≤ strategy.limit) (small : strategy.limit < 2 ^ 32)
    (inMemory : content.length < 2 ^ 63)
    (chunked : chunkBytes sha256 strategy content = some chunks)
    (noCollision : NoCollision sha256 chunks data) :
    (CaiBxIndex.fromChunks chunks target).verify sha256 checks data = some (.ok ()) ↔
      content <+: data := by
  obtain rfl := Option.some.inj (chunked.symm.trans (chunkBytes_eq positive))
  have whole := flatten_segments strategy.cuts content
  have verified := @verifyEntries_placed sha256 checks data _ 0 (length_segments small positive)
    (not_mem_segments _ _) (by rw [whole]; omega) noCollision
  rw [whole, List.drop_zero] at verified
  exact verified

/-- The string alone is accepted iff what is given is not a proper extension of it. -/
theorem verify_exact_iff (positive : 1 ≤ strategy.limit) (small : strategy.limit < 2 ^ 32)
    (inMemory : content.length < 2 ^ 63)
    (chunked : chunkBytes sha256 strategy content = some chunks)
    (noCollision : NoCollision sha256 chunks data) :
    ((CaiBxIndex.fromChunks chunks target).verify sha256 checks data = some (.ok ()) ↔
      data = content) ↔ ¬ (content <+: data ∧ content.length < data.length) := by
  rw [verify_eq_ok_iff positive small inMemory chunked noCollision]
  constructor
  · rintro exact ⟨begins, longer⟩
    rw [exact.mp begins] at longer
    exact Nat.lt_irrefl _ longer
  · intro noExtension
    constructor
    · intro begins
      exact (begins.eq_of_length_le (Nat.le_of_not_lt fun longer => noExtension ⟨begins, longer⟩)).symm
    · rintro rfl
      exact List.prefix_refl _

theorem verify_exact_sample :
    ((sampleIndex [1, 2, 3]).verify sampleHash true [1, 2, 4] = some (.ok ()) ↔
      ([1, 2, 4] : Bytes) = [1, 2, 3]) ↔
    ¬ (([1, 2, 3] : Bytes) <+: [1, 2, 4] ∧ ([1, 2, 3] : Bytes).length < ([1, 2, 4] : Bytes).length) := by
  have chunked : chunkBytes sampleHash (.fixed 2) [1, 2, 3] = some (sampleChunks [1, 2, 3]) := rfl
  have noCollision : NoCollision sampleHash (sampleChunks [1, 2, 3]) [1, 2, 4] := by
    unfold NoCollision
    decide
  exact verify_exact_iff (by decide) (by decide) (by decide) chunked noCollision

/-- Bytes behind the end of a string are not noticed, and against the index of the empty string
everything is accepted. -/
theorem extension_verified :
    NoCollision sampleHash (sampleChunks [1, 2, 3]) [1, 2, 3, 9] ∧
    ¬ ((sampleIndex [1, 2, 3]).verify sampleHash true [1, 2, 3, 9] = some (.ok ()) ↔
      ([1, 2, 3, 9] : Bytes) = [1, 2, 3]) ∧
    ¬ ((sampleIndex []).verify sampleHash true [7] = some (.ok ()) ↔ ([7] : Bytes) = []) := by
  refine ⟨by unfold NoCollision; decide, fun exact => ?_, fun exact => ?_⟩
  · cases exact.mp rfl
  · cases exact.mp rfl

end Casync
