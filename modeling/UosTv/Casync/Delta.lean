import Mathlib.Data.List.Forall2
import UosTv.Casync.Store

/-!
Delta updates: a file put together from the chunks of its old version and the chunks in the
difference of the two indexes.

A store keeps the first bytes that it is given under a hash (`stored_keepAll`). If the hashes
of the chunks do not collide, the bytes under every hash of the new index are those of its
chunk, whichever of the two versions they came from (`reconstruct_delta`).
-/

namespace Casync

open Effect Rust

namespace ChunkStore

/-- Chunks stored one after the other. -/
def storeChunks (store : ChunkStore) : List Chunk → ExceptT String M Unit
  | [] => pure ()
  | chunk :: rest => do
    let _ ← store.storeChunk chunk
    store.storeChunks rest

end ChunkStore

variable {store : ChunkStore} {w : World} {hash hash' : ChunkHash} {data : Bytes}
  {chunks : List Chunk} {target : UInt32} {sha256 : Bytes → ChunkHash}

/-! ### Runs without failures -/

theorem settles_storeChunks :
    Settles act Choice.Quiet (store.storeChunks chunks).run w (.ok ())
      (store.keepAll w (chunks.map Chunk.labelled)) := by
  induction chunks generalizing w with
  | nil => exact .ret
  | cons c chunks ih => exact settles_putChunk.run_bind ih

/-- The bytes of the chunks are put together if they are stored under the hashes. -/
theorem settles_reconstruct_chunks (there : ∀ c ∈ chunks, store.stored w c.hash = some c.data)
    (fits : (CaiBxIndex.fromChunks chunks target).totalSize.toNat < 2 ^ 63) :
    Settles act Choice.Quiet (store.reconstruct (.fromChunks chunks target)).run w
      (.ok (content chunks)) w := by
  have all : List.Forall₂ (fun entry data => store.stored w entry.sha256 = some data)
      (CaiBxIndex.fromChunks chunks target).chunks (chunks.map (·.data)) := by
    rw [CaiBxIndex.fromChunks, List.forall₂_map_left_iff, List.forall₂_map_right_iff,
      List.forall₂_same]
    exact there
  exact settles_reconstruct all fits

/-- The capacity that is reserved is at most the length of the file. -/
theorem totalSize_le (made : ∀ c ∈ chunks, c.Made sha256) :
    (CaiBxIndex.fromChunks chunks target).totalSize.toNat ≤ (content chunks).length := by
  induction chunks with
  | nil => exact Nat.le_refl _
  | cons c chunks ih =>
    obtain ⟨here, others⟩ := List.forall_mem_cons.mp made
    have rest := ih others
    have size := here.size_le
    change (c.size.toUInt64 + (chunks.map fun c : Chunk => c.size.toUInt64).sum).toNat ≤ _
    change (chunks.map fun c : Chunk => c.size.toUInt64).sum.toNat ≤ _ at rest
    rw [UInt64.toNat_add, UInt32.toNat_toUInt64, content, List.flatMap_cons, List.length_append]
    exact (Nat.mod_le _ _).trans (Nat.add_le_add size rest)

/-! ### Delta updates -/

section Versions

variable {strategy strategy' : ChunkingStrategy} {old new : Bytes}
  {oldChunks newChunks inserted : List Chunk} {target target' : UInt32}

/-- What is stored under the hash of a new chunk are its bytes. -/
theorem stored_newChunk
    (oldMade : ∀ c ∈ oldChunks, c.Made sha256) (newMade : ∀ c ∈ newChunks, c.Made sha256)
    (noCollision : ∀ c ∈ oldChunks ++ newChunks, ∀ c' ∈ oldChunks ++ newChunks,
      sha256 c.data = sha256 c'.data → c.data = c'.data)
    (inserted_iff : ∀ c, c ∈ inserted ↔ c ∈ oldChunks ∨ c ∈ newChunks ∧
      c.hash ∈ CaiBxIndex.diff (.fromChunks oldChunks target) (.fromChunks newChunks target'))
    (others : ∀ c ∈ newChunks, ∀ data, store.stored w c.hash = some data → data = c.data) :
    ∀ c ∈ newChunks,
      store.stored (store.keepAll w (inserted.map Chunk.labelled)) c.hash = some c.data := by
  intro c mem
  rw [stored_keepAll, ChunkStore.storedWith, List.find?_map, Option.map_map]
  cases there : store.stored w c.hash with
  | some data => rw [others c mem data there, Option.some_or]
  | none =>
    -- The hash is that of some chunk that was inserted, an old one or the new one itself.
    obtain ⟨c', inserted', same⟩ : ∃ c' ∈ inserted, c'.hash = c.hash := by
      by_cases shared : c.hash ∈ oldChunks.map (·.hash)
      · obtain ⟨c', mem', same⟩ := List.mem_map.mp shared
        exact ⟨c', (inserted_iff c').mpr (.inl mem'), same⟩
      · refine ⟨c, (inserted_iff c).mpr (.inr ⟨mem, ?_⟩), rfl⟩
        rw [CaiBxIndex.mem_diff, CaiBxIndex.hashes_fromChunks, CaiBxIndex.hashes_fromChunks]
        exact ⟨List.mem_map_of_mem mem, shared⟩
    obtain ⟨first, found⟩ : ∃ first,
        inserted.find? ((fun l => l.1 = c.hash) ∘ Chunk.labelled) = some first :=
      Option.isSome_iff_exists.mp (List.find?_isSome.mpr ⟨c', inserted', decide_eq_true same⟩)
    have matched := List.find?_some found
    rw [Function.comp_apply, decide_eq_true_iff] at matched
    have firstHash : first.hash = c.hash := matched
    have firstMem : first ∈ oldChunks ++ newChunks := by
      rcases (inserted_iff first).mp (List.mem_of_find?_eq_some found) with inOld | ⟨inNew, -⟩
      · exact List.mem_append_left _ inOld
      · exact List.mem_append_right _ inNew
    have made : ∀ c ∈ oldChunks ++ newChunks, c.Made sha256 := by
      intro c mem
      exact (List.mem_append.mp mem).elim (oldMade c) (newMade c)
    have cMem : c ∈ oldChunks ++ newChunks := List.mem_append_right _ mem
    have hashes : sha256 first.data = sha256 c.data := by
      rw [← (made first firstMem).hash_eq, ← (made c cMem).hash_eq, firstHash]
    rw [found, Option.none_or, Option.map_some]
    exact congrArg some (noCollision first firstMem c cMem hashes)

/-- With the chunks of the old file and those of the new file whose hashes are in the difference
of the two indexes, stored in any order, the new file is put together. -/
theorem reconstruct_delta (oldChunked : chunkBytes sha256 strategy old = some oldChunks)
    (newChunked : chunkBytes sha256 strategy' new = some newChunks)
    (noCollision : ∀ c ∈ oldChunks ++ newChunks, ∀ c' ∈ oldChunks ++ newChunks,
      sha256 c.data = sha256 c'.data → c.data = c'.data)
    (inserted_iff : ∀ c, c ∈ inserted ↔ c ∈ oldChunks ∨ c ∈ newChunks ∧
      c.hash ∈ CaiBxIndex.diff (.fromChunks oldChunks target) (.fromChunks newChunks target'))
    (others : ∀ c ∈ newChunks, ∀ data, store.stored w c.hash = some data → data = c.data)
    (inMemory : new.length < 2 ^ 63) :
    (∃ w', Settles act Choice.Quiet
      (do
        store.storeChunks inserted
        store.reconstruct (.fromChunks newChunks target') : ExceptT String M Bytes).run
      w (.ok new) w') ∧
    ∀ hash ∈ CaiBxIndex.diff (.fromChunks oldChunks target) (.fromChunks newChunks target'),
      hash ∉ (CaiBxIndex.fromChunks oldChunks target).chunks.map (·.sha256) := by
  have oldMade := made_of_chunkBytes oldChunked
  have newMade := made_of_chunkBytes newChunked
  constructor
  · have there := stored_newChunk oldMade newMade noCollision inserted_iff others
    have whole := data_of_chunkBytes newChunked
    have fits : (CaiBxIndex.fromChunks newChunks target').totalSize.toNat < 2 ^ 63 := by
      have size : (CaiBxIndex.fromChunks newChunks target').totalSize.toNat ≤ _ :=
        totalSize_le newMade
      rw [whole] at size
      omega
    have put := settles_reconstruct_chunks there fits
    rw [whole] at put
    exact ⟨_, settles_storeChunks.run_bind put⟩
  · intro hash mem
    exact (CaiBxIndex.mem_diff.mp mem).2

end Versions

/-- A hash for examples: the first bytes. -/
def sampleHash (data : Bytes) : ChunkHash where
  bytes := (data ++ List.replicate 32 0).take 32
  length := by simp

def sampleChunks (data : Bytes) : List Chunk := fixedFrom sampleHash 0 (slices 2 data.length data)

def sampleIndex (data : Bytes) : CaiBxIndex := .fromChunks (sampleChunks data) 2

/-- The chunks of the new file that are downloaded. -/
def sampleMissing (old new : Bytes) : List Chunk :=
  (sampleChunks new).filter fun c => c.hash ∈ CaiBxIndex.diff (sampleIndex old) (sampleIndex new)

theorem reconstruct_delta_sample :
    (∃ w', Settles act Choice.Quiet
      (do
        ChunkStore.storeChunks ⟨"/store"⟩ (sampleChunks [1, 2, 3] ++ sampleMissing [1, 2, 3] [1, 2, 9, 9])
        ChunkStore.reconstruct ⟨"/store"⟩ (sampleIndex [1, 2, 9, 9]) : ExceptT String M Bytes).run
      World.empty (.ok [1, 2, 9, 9]) w') ∧
    ∀ hash ∈ CaiBxIndex.diff (sampleIndex [1, 2, 3]) (sampleIndex [1, 2, 9, 9]),
      hash ∉ (sampleIndex [1, 2, 3]).chunks.map (·.sha256) := by
  have oldChunked : chunkBytes sampleHash (.fixed 2) [1, 2, 3] = some (sampleChunks [1, 2, 3]) := rfl
  have newChunked : chunkBytes sampleHash (.fixed 2) [1, 2, 9, 9] = some (sampleChunks [1, 2, 9, 9]) :=
    rfl
  apply reconstruct_delta oldChunked newChunked
  · decide
  · intro c
    rw [List.mem_append, sampleMissing, List.mem_filter, decide_eq_true_iff]
    exact Iff.rfl
  · rintro c mem data ⟨⟩
  · decide

end Casync
