import UosTv.Casync.Delta
import UosTv.Casync.Integrity
import UosTv.Casync.IndexFormat
import UosTv.Casync.Verification

/-!
The commands of `casync-rs` (`main.rs`), and what a store lacks for an index (`check_chunks`).

`make` writes the index of a file, `extract` puts a file together from an index and a store, `verify`
compares a file with an index. Between the first two, the chunks that the store lacks have to come
from somewhere. `check_chunks` says which: it is empty iff the file can be put together, and otherwise
begins with the chunk that `reconstruct` complains of (`check_chunks_iff`). When these chunks have been
stored, `extract` writes the file that `make` was given, and `verify` accepts it (`update_restores`).

The commands panic where they `expect` a result.
-/

namespace Casync

open Effect Rust Ciborium Segments

/-! ### What is missing -/

namespace ChunkStore

/-- `has_chunk`. -/
def hasChunk (store : ChunkStore) (hash : ChunkHash) : M Bool := pathExists (store.chunkPath hash)

/-- The loop of `check_chunks`. -/
def checkEntries (store : ChunkStore) (present missing : List ChunkHash) :
    List ChunkEntry → M (List ChunkHash × List ChunkHash)
  | [] => pure (present, missing)
  | entry :: rest => do
    if ← store.hasChunk entry.sha256 then
      store.checkEntries (present ++ [entry.sha256]) missing rest
    else store.checkEntries present (missing ++ [entry.sha256]) rest

/-- `check_chunks`. -/
def checkChunks (store : ChunkStore) (index : CaiBxIndex) : M (List ChunkHash × List ChunkHash) :=
  store.checkEntries [] [] index.chunks

/-- There is a chunk under the hash. -/
def has (store : ChunkStore) (w : World) (hash : ChunkHash) : Bool := (store.stored w hash).isSome

/-- The hashes of an index under which there is a chunk. -/
def present (store : ChunkStore) (w : World) (index : CaiBxIndex) : List ChunkHash :=
  (index.chunks.map (·.sha256)).filter (store.has w)

/-- The hashes of an index under which there is none. -/
def missing (store : ChunkStore) (w : World) (index : CaiBxIndex) : List ChunkHash :=
  (index.chunks.map (·.sha256)).filter fun hash => !store.has w hash

end ChunkStore

variable {store : ChunkStore} {w : World} {entries : List ChunkEntry} {index : CaiBxIndex}

theorem settles_checkEntries {present missing : List ChunkHash} :
    Settles act Choice.Quiet (store.checkEntries present missing entries) w
      (present ++ (entries.map (·.sha256)).filter (store.has w),
        missing ++ (entries.map (·.sha256)).filter fun hash => !store.has w hash) w := by
  induction entries generalizing present missing with
  | nil =>
    rw [List.map_nil, List.filter_nil, List.filter_nil, List.append_nil, List.append_nil]
    exact .ret
  | cons entry entries ih =>
    rw [ChunkStore.checkEntries]
    refine settles_pathExists.bind ?_
    change Settles _ _ (if store.has w entry.sha256 = true then _ else _) _ _ _
    cases there : store.has w entry.sha256 with
    | true =>
      have rest := @ih (present ++ [entry.sha256]) missing
      rw [List.append_assoc] at rest
      simpa [there] using rest
    | false =>
      have rest := @ih present (missing ++ [entry.sha256])
      rw [List.append_assoc] at rest
      simpa [there] using rest

theorem settles_checkChunks : Settles act Choice.Quiet (store.checkChunks index) w
    (store.present w index, store.missing w index) w := by
  have checked := @settles_checkEntries store w index.chunks [] []
  rwa [List.nil_append, List.nil_append] at checked

/-- A panic: an `expect` with the error, an `io::Error` or one of this crate, or one inside
`verify`. -/
inductive Panic where
  | expect (message : String) (error : String ⊕ Error)
  | verify

/-- `MIN_CHUNK_SIZE` and `MAX_CHUNK_SIZE`, and the mask of the default strategy. -/
def ChunkingStrategy.default : ChunkingStrategy := .gearHash 32768 131072 0xFFFF

namespace CaiBxIndex

/-- `from_file`. The default strategy chunks every string. -/
def fromFile (sha256 : Bytes → ChunkHash) (path : String) : ExceptT (String ⊕ Error) M CaiBxIndex := do
  let data ← attempt .inl (read path)
  pure (.fromChunks ((chunkBytes sha256 .default data).getD []) 65536)

/-- `save`. -/
def save (index : CaiBxIndex) (path : String) : ExceptT (String ⊕ Error) M Unit :=
  attempt .inl (write path index.toBytes)

/-- `load`. -/
def load (reader : Reader) (path : String) : ExceptT (String ⊕ Error) M CaiBxIndex := do
  let data ← attempt .inl (read path)
  ExceptT.mk (pure ((fromBytes (ofReader reader) data).mapError .inr))

end CaiBxIndex

/-- `Result::expect`. -/
def expect {α : Type} (message : String) (p : ExceptT (String ⊕ Error) M α) : ExceptT Panic M α :=
  attempt (.expect message) p.run

/-- `Commands::Make`. What is printed is read off the index. -/
def make (sha256 : Bytes → ChunkHash) (input : String) (output : Option String) :
    ExceptT Panic M CaiBxIndex := do
  let index ← expect "Failed to create index" (CaiBxIndex.fromFile sha256 input)
  expect "Failed to save index" (index.save (output.getD (input ++ ".caibx")))
  pure index

/-- `ChunkStore::new`. -/
def ChunkStore.new (root : String) : ExceptT (String ⊕ Error) M ChunkStore := do
  attempt .inl (createDirAll (join root "chunks"))
  pure ⟨root⟩

/-- `Commands::Extract`. -/
def extract (reader : Reader) (index root : String) (output : Option String) :
    ExceptT Panic M Bytes := do
  let idx ← expect "Failed to load index" (CaiBxIndex.load reader index)
  let store ← expect "Failed to open store" (ChunkStore.new root)
  let data ← attempt (fun e => .expect "Failed to reconstruct" (.inl e)) (store.reconstruct idx).run
  attempt (fun e => .expect "Failed to write output" (.inl e))
    (write (output.getD (index ++ ".reconstructed")) data)
  pure data

/-- `Commands::Verify`, with what it prints: that the file passes, or the error. -/
def verify (sha256 : Bytes → ChunkHash) (reader : Reader) (checks : Bool) (index file : String) :
    ExceptT Panic M (Except Error Unit) := do
  let idx ← expect "Failed to load index" (CaiBxIndex.load reader index)
  let data ← attempt (fun e => .expect "Failed to read file" (.inl e)) (read file)
  match idx.verify sha256 checks data with
  | some outcome => pure outcome
  | none => throw .verify

/-- An update with the commands: the index of a file is made, what the store lacks is fetched and
stored, and the file is put together again and compared with the index. -/
def update (sha256 : Bytes → ChunkHash) (reader : Reader) (checks : Bool)
    (fetch : List ChunkHash → List (ChunkHash × Bytes)) (root input output restored : String) :
    ExceptT Panic M (Except Error Unit) := do
  let _ ← make sha256 input (some output)
  let index ← expect "Failed to load index" (CaiBxIndex.load reader output)
  let (_, missing) ← always (ChunkStore.checkChunks ⟨root⟩ index)
  let _ ← attempt (fun e => .expect "Failed to store" (.inl e))
    (ChunkStore.storeFromIndex ⟨root⟩ index (fetch missing)).run
  let _ ← extract reader output root (some restored)
  verify sha256 reader checks output restored

/-! ### Files beside the store -/

section Files

variable {sha256 : Bytes → ChunkHash} {reader : Reader} {checks : Bool} {data : Bytes}
  {chunks : List Chunk} {path : String} {w' : World} {offered : List (ChunkHash × Bytes)}

theorem stored_put_of_ne {bytes : Bytes} (apart : ∀ hash, store.chunkPath hash ≠ path) (hash : ChunkHash) :
    store.stored (w.put path bytes) hash = store.stored w hash :=
  (World.get_put _ _ _ _).trans (if_neg (apart hash))

theorem get_keepAll (apart : ∀ hash, store.chunkPath hash ≠ path) :
    (store.keepAll w offered).files.get path = w.files.get path := by
  induction offered generalizing w with
  | nil => rfl
  | cons pair offered ih =>
    have kept : (store.keep w pair.1 pair.2).files.get path = w.files.get path := by
      rw [ChunkStore.keep]
      split
      · rfl
      · exact (World.get_put _ _ _ _).trans (if_neg (apart pair.1).symm)
    exact ih.trans kept

/-! ### Single commands -/

theorem Settles.expect {α : Type} {message : String} {p : ExceptT (String ⊕ Error) M α} {a : α}
    (settles : Settles act Choice.Quiet p.run w (.ok a) w') :
    Settles act Choice.Quiet (Casync.expect message p).run w (.ok a) w' := settles.attempt

/-- The index of a string is read as it was written. -/
theorem fromBytes_made (chunked : chunkBytes sha256 .default data = some chunks)
    (inMemory : data.length < 2 ^ 63) : CaiBxIndex.fromBytes (CaiBxIndex.ofReader reader)
      (CaiBxIndex.fromChunks chunks 65536).toBytes = .ok (.fromChunks chunks 65536) := by
  obtain rfl := Option.some.inj (chunked.symm.trans (chunkBytes_eq (by decide)))
  have whole := flatten_segments ChunkingStrategy.default.cuts data
  have filled := not_mem_segments ChunkingStrategy.default.cuts data
  have count := length_le_flatten filled
  rw [whole] at count
  apply fromBytes_toBytes
  · exact validate_fromChunks.mpr (ascending_placed filled (by rw [whole]; omega))
  · rw [CaiBxIndex.fromChunks, List.length_map, length_placed]
    omega

theorem settles_load (chunked : chunkBytes sha256 .default data = some chunks)
    (inMemory : data.length < 2 ^ 63)
    (there : w.files.get path = some (CaiBxIndex.fromChunks chunks 65536).toBytes) :
    Settles act Choice.Quiet (CaiBxIndex.load reader path).run w (.ok (.fromChunks chunks 65536)) w := by
  refine (settles_read there).attempt.run_bind ?_
  rw [fromBytes_made chunked inMemory]
  exact .ret

theorem settles_make {input output : String} (there : w.files.get input = some data)
    (chunked : chunkBytes sha256 .default data = some chunks) :
    Settles act Choice.Quiet (make sha256 input (some output)).run w (.ok (.fromChunks chunks 65536))
      (w.put output (CaiBxIndex.fromChunks chunks 65536).toBytes) := by
  have made : Settles act Choice.Quiet (CaiBxIndex.fromFile sha256 input).run w
      (.ok (.fromChunks chunks 65536)) w := by
    refine (settles_read there).attempt.run_bind ?_
    rw [chunked]
    exact .ret
  refine (Settles.expect made).run_bind ((Settles.expect settles_write.attempt).run_bind ?_)
  exact .ret

/-- The chunks of a string are verified in the string. -/
theorem verifyEntries_placed_own {segs : List Bytes} (small : ∀ seg ∈ segs, seg.length < 2 ^ 32)
    (fits : segs.flatten.length < 2 ^ 64) :
    CaiBxIndex.verifyEntries sha256 checks segs.flatten ((placed sha256 0 segs).map Chunk.entry) =
      some (.ok ()) := by
  have lies (start : Nat) (fits : start + segs.flatten.length < 2 ^ 64) :
      ContiguousFrom start ((placed sha256 start segs).map Chunk.entry) ∧
        (((placed sha256 start segs).map Chunk.entry).map (·.size.toNat)).sum = segs.flatten.length ∧
        List.Forall₂ (fun entry data => data.length = entry.size.toNat ∧ sha256 data = entry.sha256)
          ((placed sha256 start segs).map Chunk.entry) segs := by
    clear * - small fits
    induction segs generalizing start with
    | nil => exact ⟨trivial, rfl, .nil⟩
    | cons seg segs ih =>
      obtain ⟨here, others⟩ := List.forall_mem_cons.mp small
      rw [List.flatten_cons, List.length_append] at fits
      obtain ⟨offset, size⟩ := @entry_new sha256 start seg here (by omega)
      obtain ⟨contiguous, sum, own⟩ := ih others (start + seg.length) (by omega)
      rw [placed, List.map_cons]
      refine ⟨⟨offset, ?_⟩, ?_, .cons ⟨size.symm, rfl⟩ own⟩
      · rw [size]
        exact contiguous
      · rw [List.map_cons, List.sum_cons, sum, size, List.flatten_cons, List.length_append]
  obtain ⟨contiguous, sum, own⟩ := lies 0 (by omega)
  have verified := @verifyEntries_of_contiguous sha256 checks _ _ [] contiguous
    (by rw [sum, List.length_nil]; omega) own
  rwa [List.nil_append] at verified

theorem verify_made (chunked : chunkBytes sha256 .default data = some chunks)
    (inMemory : data.length < 2 ^ 63) :
    (CaiBxIndex.fromChunks chunks 65536).verify sha256 checks data = some (.ok ()) := by
  obtain rfl := Option.some.inj (chunked.symm.trans (chunkBytes_eq (by decide)))
  have whole := flatten_segments ChunkingStrategy.default.cuts data
  have verified := @verifyEntries_placed_own sha256 checks (segments ChunkingStrategy.default.cuts data)
    (length_segments (by decide) (by decide)) (by rw [whole]; omega)
  rw [whole] at verified
  exact verified

/-- What is offered completes the store. -/
theorem stored_offered (others : ∀ c ∈ chunks, ∀ bytes, store.stored w c.hash = some bytes → bytes = c.data)
    (served : ∀ c ∈ chunks, c.hash ∈ store.missing w (.fromChunks chunks 65536) →
      ∃ bytes, (c.hash, bytes) ∈ offered)
    (honest : ∀ c ∈ chunks, ∀ bytes, (c.hash, bytes) ∈ offered → bytes = c.data) :
    ∀ c ∈ chunks, store.stored (store.keepAll w offered) c.hash = some c.data := by
  intro c mem
  rw [stored_keepAll, ChunkStore.storedWith]
  cases there : store.stored w c.hash with
  | some bytes => rw [others c mem bytes there, Option.some_or]
  | none =>
    have lacking : c.hash ∈ store.missing w (.fromChunks chunks 65536) := by
      rw [ChunkStore.missing, CaiBxIndex.hashes_fromChunks, List.mem_filter, ChunkStore.has, there]
      exact ⟨List.mem_map_of_mem mem, rfl⟩
    obtain ⟨bytes, pair⟩ := served c mem lacking
    obtain ⟨first, found⟩ := Option.isSome_iff_exists.mp (List.find?_isSome.mpr
      ⟨(c.hash, bytes), pair, decide_eq_true rfl⟩ : (offered.find? fun p => p.1 = c.hash).isSome)
    have matched := List.find?_some found
    have same : first.1 = c.hash := of_decide_eq_true matched
    have own := honest c mem first.2 (same ▸ List.mem_of_find?_eq_some found)
    rw [found, Option.none_or, Option.map_some, own]

end Files

section Update

variable {sha256 : Bytes → ChunkHash} {reader : Reader} {checks : Bool} {data : Bytes}
  {chunks : List Chunk} {fetch : List ChunkHash → List (ChunkHash × Bytes)}
  {root input output restored : String}

/-- **Making, fetching and extracting.** From a file of which `make` writes the index, and a store in
which nothing wrong stands under the hashes of its chunks, an update in which no operation fails
writes the same bytes to the other file, and `verify` accepts them. It asks for the chunks that the
store lacks only; what else the answer holds, in which order and how often, does not matter. In the
end the store lacks nothing of the index. -/
theorem update_restores (content : w.files.get input = some data) (inMemory : data.length < 2 ^ 63)
    (chunked : chunkBytes sha256 .default data = some chunks)
    (others : ∀ c ∈ chunks, ∀ bytes, ChunkStore.stored ⟨root⟩ w c.hash = some bytes → bytes = c.data)
    (served : ∀ hashes, ∀ c ∈ chunks, c.hash ∈ hashes → ∃ bytes, (c.hash, bytes) ∈ fetch hashes)
    (honest : ∀ hashes, ∀ c ∈ chunks, ∀ bytes, (c.hash, bytes) ∈ fetch hashes → bytes = c.data)
    (outputApart : ∀ hash, ChunkStore.chunkPath ⟨root⟩ hash ≠ output)
    (restoredApart : ∀ hash, ChunkStore.chunkPath ⟨root⟩ hash ≠ restored) (two : output ≠ restored) :
    ∃ w', Settles act Choice.Quiet
        (update sha256 reader checks fetch root input output restored).run w (.ok (.ok ())) w' ∧
      w'.files.get restored = some data ∧
      ChunkStore.missing ⟨root⟩ w' (.fromChunks chunks 65536) = [] := by
  set index := CaiBxIndex.fromChunks chunks 65536 with isIndex
  set w₁ := w.put output index.toBytes with isW₁
  set offered := fetch (ChunkStore.missing ⟨root⟩ w₁ index) with isOffered
  set w₂ := ChunkStore.keepAll ⟨root⟩ w₁ offered with isW₂
  have index₁ : w₁.files.get output = some index.toBytes :=
    (World.get_put _ _ _ _).trans (if_pos rfl)
  have index₂ : w₂.files.get output = some index.toBytes := (get_keepAll outputApart).trans index₁
  have index₃ : (w₂.put restored data).files.get output = some index.toBytes :=
    ((World.get_put _ _ _ _).trans (if_neg two)).trans index₂
  have restored₃ : (w₂.put restored data).files.get restored = some data :=
    (World.get_put _ _ _ _).trans (if_pos rfl)
  have stored₂ : ∀ c ∈ chunks, ChunkStore.stored ⟨root⟩ w₂ c.hash = some c.data := by
    refine stored_offered (fun c mem bytes there => ?_) (fun c mem => served _ c mem) (honest _)
    rw [stored_put_of_ne outputApart] at there
    exact others c mem bytes there
  have fits : index.totalSize.toNat < 2 ^ 63 := by
    have size : index.totalSize.toNat ≤ _ := totalSize_le (made_of_chunkBytes chunked)
    rw [data_of_chunkBytes chunked] at size
    omega
  have put := settles_reconstruct_chunks stored₂ fits
  rw [data_of_chunkBytes chunked] at put
  have extracted : Settles act Choice.Quiet (extract reader output root (some restored)).run w₂
      (.ok data) (w₂.put restored data) := by
    refine (Settles.expect (settles_load chunked inMemory index₂)).run_bind ?_
    have opened : Settles act Choice.Quiet (ChunkStore.new root).run w₂ (.ok ⟨root⟩) w₂ :=
      settles_createDirAll.attempt.run_bind .ret
    refine (Settles.expect opened).run_bind (put.attempt.run_bind ?_)
    exact settles_write.attempt.run_bind .ret
  have verified : Settles act Choice.Quiet (verify sha256 reader checks output restored).run
      (w₂.put restored data) (.ok (.ok ())) (w₂.put restored data) := by
    refine (Settles.expect (settles_load chunked inMemory index₃)).run_bind ?_
    refine (settles_read restored₃).attempt.run_bind ?_
    rw [verify_made chunked inMemory]
    exact .ret
  refine ⟨w₂.put restored data, ?_, restored₃, ?_⟩
  · refine (settles_make content chunked).run_bind ?_
    refine (Settles.expect (settles_load chunked inMemory index₁)).run_bind ?_
    refine settles_checkChunks.always.run_bind ?_
    refine (settles_storeAll.run_bind put).attempt.run_bind ?_
    exact extracted.run_bind verified
  · refine List.filter_eq_nil_iff.mpr fun hash mem => ?_
    rw [isIndex, CaiBxIndex.hashes_fromChunks] at mem
    obtain ⟨c, inChunks, rfl⟩ := List.mem_map.mp mem
    rw [ChunkStore.has, stored_put_of_ne restoredApart, stored₂ c inChunks, Option.isSome_some]
    exact Bool.false_ne_true

/-- A short path is not in a store. -/
theorem chunkPath_ne_of_short {path : String} (short : path.toList.length < 64) (hash : ChunkHash) :
    store.chunkPath hash ≠ path := by
  rintro rfl
  have long := (suffix_join (store.chunkDir hash) (hexEncode hash.bytes)).length_le
  have here : (store.chunkPath hash).toList.length < 64 := short
  rw [ChunkStore.chunkPath] at here
  rw [length_hexEncode, hash.length] at long
  omega

theorem update_restores_sample : ∃ w', Settles act Choice.Quiet
    (update sampleHash definiteReader true (fun _ => [(sampleHash [1, 2, 3], [1, 2, 3])]) "/store"
      "/image" "/index" "/again").run (World.empty.put "/image" [1, 2, 3]) (.ok (.ok ())) w' ∧
    w'.files.get "/again" = some [1, 2, 3] ∧ ChunkStore.missing ⟨"/store"⟩ w'
      (.fromChunks [Chunk.new sampleHash 0 [1, 2, 3]] 65536) = [] := by
  have chunked : chunkBytes sampleHash .default [1, 2, 3] =
      some [Chunk.new sampleHash 0 [1, 2, 3]] := by decide
  refine update_restores rfl (by decide) chunked ?_ ?_ ?_ ?_ ?_ (by decide)
  · intro c _ bytes there
    rw [stored_put_of_ne (chunkPath_ne_of_short (by decide))] at there
    cases there
  · intro hashes c mem _
    obtain rfl := List.mem_singleton.mp mem
    exact ⟨_, List.mem_singleton_self _⟩
  · intro hashes c mem bytes pair
    obtain rfl := List.mem_singleton.mp mem
    exact (Prod.ext_iff.mp (List.mem_singleton.mp pair)).2
  · exact chunkPath_ne_of_short (by decide)
  · exact chunkPath_ne_of_short (by decide)

end Update

end Casync
