import UosTv.Casync.Files
import UosTv.Casync.Index

/-!
The chunk store (`casync-rs/src/store.rs`).

A chunk is a file under the hexadecimal text of its hash, written once. A file is put together
from the chunks of an index, in the order of the index. Neither looks at the bytes: that a
chunk has the hash it is stored under is up to who hands it over.
-/

namespace Casync

open Effect Rust

structure ChunkStore where
  root : String
deriving DecidableEq, Repr

namespace ChunkStore

/-- `chunks_dir`, and in it the directory of the chunks with the first two digits of a hash. -/
def chunkDir (store : ChunkStore) (hash : ChunkHash) : String :=
  join (join store.root "chunks") (String.ofList ((hexEncode hash.bytes).toList.take 2))

/-- `chunk_path`. -/
def chunkPath (store : ChunkStore) (hash : ChunkHash) : String :=
  join (store.chunkDir hash) (hexEncode hash.bytes)

/-- The body of `store_chunk`, and of the loop of `store_from_index`: whether the chunk is
there already. -/
def putChunk (store : ChunkStore) (hash : ChunkHash) (data : Bytes) : ExceptT String M Bool := do
  let path := store.chunkPath hash
  if ← always (pathExists path) then pure true
  else
    attempt id (createDirAll (store.chunkDir hash))
    attempt id (write path data)
    pure false

/-- `store_chunk`. -/
def storeChunk (store : ChunkStore) (chunk : Chunk) : ExceptT String M Bool :=
  store.putChunk chunk.hash chunk.data

/-- The loop of `reconstruct`. -/
def readEntries (store : ChunkStore) (output : Bytes) : List ChunkEntry → ExceptT String M Bytes
  | [] => pure output
  | entry :: rest => do
    let path := store.chunkPath entry.sha256
    if ← always (pathExists path) then
      let data ← attempt id (read path)
      store.readEntries (output ++ data) rest
    else
      throw ("Missing chunk: " ++ hexEncode entry.sha256.bytes ++ " at offset " ++
        toString entry.offset)

/-- `reconstruct`. -/
def reconstruct (store : ChunkStore) (index : CaiBxIndex) : ExceptT String M Bytes := do
  always (reserve index.totalSize.toNat)
  store.readEntries [] index.chunks

/-- The loop of `store_from_index`. -/
def storeAll (store : ChunkStore) : List (ChunkHash × Bytes) → ExceptT String M Unit
  | [] => pure ()
  | chunk :: rest => do
    let _ ← store.putChunk chunk.1 chunk.2
    store.storeAll rest

/-- `store_from_index`. -/
def storeFromIndex (store : ChunkStore) (index : CaiBxIndex) (chunks : List (ChunkHash × Bytes)) :
    ExceptT String M Bytes := do
  store.storeAll chunks
  store.reconstruct index

/-- `get_chunk_data`. -/
def getChunkData (store : ChunkStore) (hash : ChunkHash) : ExceptT String M Bytes :=
  attempt id (read (store.chunkPath hash))

/-- The bytes stored under a hash. -/
def stored (store : ChunkStore) (w : World) (hash : ChunkHash) : Option Bytes :=
  w.files.get (store.chunkPath hash)

/-- The bytes under a hash once chunks have been handed over: those that were there, else the
first handed over. -/
def storedWith (store : ChunkStore) (w : World) (chunks : List (ChunkHash × Bytes))
    (hash : ChunkHash) : Option Bytes :=
  (store.stored w hash).or ((chunks.find? fun c => c.1 = hash).map (·.2))

/-- The files after a chunk has been stored. -/
def keep (store : ChunkStore) (w : World) (hash : ChunkHash) (data : Bytes) : World :=
  if (store.stored w hash).isSome then w else w.put (store.chunkPath hash) data

/-- The files after chunks have been stored. -/
def keepAll (store : ChunkStore) (w : World) (chunks : List (ChunkHash × Bytes)) : World :=
  chunks.foldl (fun w c => store.keep w c.1 c.2) w

end ChunkStore

/-! ### Paths -/

variable {store : ChunkStore} {w w' : World} {hash hash' : ChunkHash} {data output : Bytes}
  {chunks : List (ChunkHash × Bytes)} {entries : List ChunkEntry}

/-- Chunks with different hashes are in different files. -/
theorem chunkPath_inj : store.chunkPath hash = store.chunkPath hash' ↔ hash = hash' := by
  constructor
  · intro same
    have left := suffix_join (store.chunkDir hash) (hexEncode hash.bytes)
    have right := suffix_join (store.chunkDir hash') (hexEncode hash'.bytes)
    have paths : join (store.chunkDir hash) (hexEncode hash.bytes) =
      join (store.chunkDir hash') (hexEncode hash'.bytes) := same
    rw [paths] at left
    have lengths : (hexEncode hash.bytes).toList.length = (hexEncode hash'.bytes).toList.length := by
      rw [length_hexEncode, length_hexEncode, hash.length, hash'.length]
    have texts := (List.suffix_of_suffix_length_le left right lengths.le).eq_of_length lengths
    have bytes := hexEncode_injective (String.toList_inj.mp texts)
    cases hash
    cases hash'
    cases bytes
    rfl
  · rintro rfl
    rfl

theorem stored_put : store.stored (w.put (store.chunkPath hash) data) hash' =
    if hash' = hash then some data else store.stored w hash' := by
  rw [ChunkStore.stored, World.get_put]
  simp only [chunkPath_inj]
  rfl

/-! ### What the store keeps -/

theorem stored_keep : store.stored (store.keep w hash data) hash' =
    if hash' = hash then (store.stored w hash).or (some data) else store.stored w hash' := by
  unfold ChunkStore.keep
  split
  · rename_i there
    obtain ⟨old, there⟩ := Option.isSome_iff_exists.mp there
    split
    · rename_i same
      rw [same, there, Option.some_or]
    · rfl
  · rename_i absent
    rw [stored_put, Option.not_isSome_iff_eq_none.mp absent, Option.none_or]

/-- The store keeps the first bytes under a hash. -/
theorem stored_keepAll :
    store.stored (store.keepAll w chunks) hash = store.storedWith w chunks hash := by
  unfold ChunkStore.storedWith
  induction chunks generalizing w with
  | nil => simp [ChunkStore.keepAll]
  | cons c chunks ih =>
    have rest := @ih (store.keep w c.1 c.2)
    rw [ChunkStore.keepAll, List.foldl_cons]
    refine rest.trans ?_
    rw [stored_keep, List.find?_cons]
    by_cases here : c.1 = hash
    · rw [if_pos here.symm, here]
      simp
    · rw [if_neg (Ne.symm here)]
      simp [here]

/-! ### Runs without failures -/

theorem settles_putChunk :
    Settles act Choice.Quiet (store.putChunk hash data).run w (.ok (store.stored w hash).isSome)
      (store.keep w hash data) := by
  unfold ChunkStore.putChunk ChunkStore.keep
  apply Settles.run_bind settles_pathExists.always
  change Settles _ _ (ExceptT.run (if (store.stored w hash).isSome then _ else _)) _ _ _
  split
  · rename_i there
    rw [there]
    exact .ret
  · rename_i absent
    rw [Bool.eq_false_iff.mpr absent]
    apply Settles.run_bind settles_createDirAll.attempt
    apply Settles.run_bind settles_write.attempt
    exact .ret

theorem settles_getChunkData (there : store.stored w hash = some data) :
    Settles act Choice.Quiet (store.getChunkData hash).run w (.ok data) w :=
  (settles_read there).attempt

theorem settles_storeAll :
    Settles act Choice.Quiet (store.storeAll chunks).run w (.ok ()) (store.keepAll w chunks) := by
  induction chunks generalizing w with
  | nil => exact .ret
  | cons c chunks ih => exact settles_putChunk.run_bind ih

theorem settles_readEntries {datas : List Bytes} (all : List.Forall₂
    (fun entry data => store.stored w entry.sha256 = some data) entries datas) :
    Settles act Choice.Quiet (store.readEntries output entries).run w
      (.ok (output ++ datas.flatten)) w := by
  induction all generalizing output with
  | nil =>
    rw [List.flatten_nil, List.append_nil]
    exact .ret
  | @cons entry data entries datas here others ih =>
    have present : (w.files.get (store.chunkPath entry.sha256)).isSome = true :=
      Option.isSome_iff_exists.mpr ⟨data, here⟩
    rw [ChunkStore.readEntries]
    apply Settles.run_bind settles_pathExists.always
    rw [if_pos present]
    apply Settles.run_bind (settles_read here).attempt
    rw [List.flatten_cons, ← List.append_assoc]
    exact ih

theorem settles_reconstruct {index : CaiBxIndex} {datas : List Bytes} (all : List.Forall₂
    (fun entry data => store.stored w entry.sha256 = some data) index.chunks datas)
    (fits : index.totalSize.toNat < 2 ^ 63) :
    Settles act Choice.Quiet (store.reconstruct index).run w (.ok datas.flatten) w :=
  (settles_reserve fits).always.run_bind (settles_readEntries all)

/-! ### Runs in which something fails -/

/-- What storing a chunk can do. -/
theorem wp_putChunk_of {P : Choice → Prop} [DecidablePred P] {Q : Bool → World → Prop}
    {E : String → World → Prop} (there : (store.stored w hash).isSome → Q true w)
    (new : store.stored w hash = none → Q false (w.put (store.chunkPath hash) data))
    (fails : ∀ e, store.stored w hash = none → E e w)
    (cut : ∀ choice e n, P choice → choice.failure = some e → choice.written = some n →
      store.stored w hash = none → E e (w.put (store.chunkPath hash) (data.take n))) :
    wpExcept (only act P) free (store.putChunk hash data) Q E w := by
  rw [ChunkStore.putChunk, wpExcept_bind, wpExcept_always]
  apply wp_pathExists
  change wpExcept _ _ (if (store.stored w hash).isSome then _ else _) _ _ _
  split
  · rename_i present
    exact there present
  · rename_i absent
    have absent := Option.not_isSome_iff_eq_none.mp absent
    rw [wpExcept_bind, wpExcept_attempt]
    apply wp_createDirAll
    rintro (e | _)
    · exact fails e absent
    · change wpExcept _ _ _ _ _ _
      rw [wpExcept_bind, wpExcept_attempt]
      apply wp_write_of (new absent) fun e => fails e absent
      intro choice e n allowed failure written
      exact cut choice e n allowed failure written absent

end Casync
