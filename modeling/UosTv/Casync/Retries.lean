import UosTv.Casync.Delta

/-!
Storing a chunk again after a write that failed.

`store_chunk` takes a file that exists for the chunk. A write that fails may leave a file with
the first of the bytes, so what is stored under the hash of a chunk that `store_chunk` has
accepted are its bytes if no write was cut short (`returned_of_whole`), and otherwise they may
be fewer (`cut_short_accepted`).
-/

namespace Casync

open Effect Rust

/-- A `store_chunk`, with the choices made in it, its result and the files after it. -/
structure Call where
  chunk : Chunk
  choices : List Choice
  result : Except String Bool
  after : World

/-- The calls made on an empty store, the last first, and the files after them. -/
inductive Stores (store : ChunkStore) : List Call → World → Prop
  | none : Stores store [] .empty
  | call {calls : List Call} {w w' : World} {chunk : Chunk} {choices : List Choice}
    {r : Except String Bool} (stores : Stores store calls w)
    (run : exec act (store.storeChunk chunk).run w choices = some (r, w', [])) :
    Stores store (⟨chunk, choices, r, w'⟩ :: calls) w'

/-- A write of the bytes that fails leaves all of them behind, or none and no file. -/
def Choice.Whole (data : Bytes) (choice : Choice) : Prop :=
  choice.failure = none ∨ ∀ n ∈ choice.written, data.length ≤ n

instance (data : Bytes) : DecidablePred (Choice.Whole data) :=
  fun _ => inferInstanceAs (Decidable (_ ∨ _))

/-- No write of the call is cut short. -/
def Call.Whole (call : Call) : Prop := ∀ choice ∈ call.choices, choice.Whole call.chunk.data

/-- Nothing but the chunk has come into the files. -/
def AddsOnly (store : ChunkStore) (chunk : Chunk) (w w' : World) : Prop :=
  ∀ hash data, store.stored w' hash = some data →
    store.stored w hash = some data ∨ hash = chunk.hash ∧ data = chunk.data

/-- Every hash under which there is something is one of a chunk in a call. -/
def Accounted (store : ChunkStore) (w : World) (calls : List Call) : Prop :=
  ∀ hash data, store.stored w hash = some data →
    ∃ call ∈ calls, call.chunk.hash = hash ∧ call.chunk.data = data

variable {store : ChunkStore} {calls : List Call} {w w' : World} {chunk : Chunk}
  {choices : List Choice} {r : Except String Bool}

theorem addsOnly_put : AddsOnly store chunk w (w.put (store.chunkPath chunk.hash) chunk.data) := by
  intro hash data there
  rw [stored_put] at there
  split at there
  · cases there
    exact .inr ⟨‹_›, rfl⟩
  · exact .inl there

/-- When no write is cut short, there is something stored under the hash of a chunk that has
been accepted. -/
theorem storeChunk_run (run : exec act (store.storeChunk chunk).run w choices = some (r, w', []))
    (whole : ∀ choice ∈ choices, choice.Whole chunk.data) :
    AddsOnly store chunk w w' ∧ ∀ there, r = .ok there → (store.stored w' chunk.hash).isSome := by
  have ends : wpExcept (only act (Choice.Whole chunk.data)) free (store.storeChunk chunk)
      (fun _ w' => AddsOnly store chunk w w' ∧ (store.stored w' chunk.hash).isSome)
      (fun _ w' => AddsOnly store chunk w w') w := by
    have unchanged : AddsOnly store chunk w w := fun _ _ => .inl
    apply wp_putChunk_of
    · exact fun present => ⟨unchanged, present⟩
    · intro _
      refine ⟨addsOnly_put, ?_⟩
      rw [stored_put, if_pos rfl]
      rfl
    · exact fun _ _ => unchanged
    · intro choice e n allowed failure written _
      rcases allowed with fine | all
      · cases failure.symm.trans fine
      · rw [List.take_of_length_le (all n written)]
        exact addsOnly_put
  have post := wpExcept_exec_only ends whole run
  cases r with
  | ok there => exact ⟨post.1, fun _ _ => post.2⟩
  | error e =>
    refine ⟨post, ?_⟩
    rintro there ⟨⟩

/-- What is stored comes from the calls. -/
theorem accounted_of_stores (stores : Stores store calls w) (whole : ∀ call ∈ calls, call.Whole) :
    Accounted store w calls := by
  induction stores with
  | none =>
    rintro hash data ⟨⟩
  | @call calls w w' chunk choices r stores run ih =>
    obtain ⟨here, before⟩ := List.forall_mem_cons.mp whole
    intro hash data there
    rcases (storeChunk_run run here).1 hash data there with old | ⟨rfl, rfl⟩
    · obtain ⟨call, mem, labelled⟩ := ih before hash data old
      exact ⟨call, List.mem_cons_of_mem _ mem, labelled⟩
    · exact ⟨_, List.mem_cons_self, rfl, rfl⟩

/-- When no write is cut short and no two chunks share a hash, `get_chunk_data` returns the
bytes of every chunk that has been accepted. -/
theorem returned_of_whole (stores : Stores store calls w) (whole : ∀ call ∈ calls, call.Whole)
    (labelled : ∀ call ∈ calls, ∀ call' ∈ calls, call.chunk.hash = call'.chunk.hash →
      call.chunk.data = call'.chunk.data) :
    ∀ call ∈ calls, ∀ there, call.result = .ok there →
      Settles act Choice.Quiet (store.getChunkData call.chunk.hash).run call.after
        (.ok call.chunk.data) call.after := by
  induction stores with
  | none => exact List.forall_mem_nil _
  | @call calls w w' chunk choices r stores run ih =>
    have accounted := accounted_of_stores (stores.call run) whole
    obtain ⟨here, before⟩ := List.forall_mem_cons.mp whole
    refine List.forall_mem_cons.mpr ⟨fun there accepted => ?_, ?_⟩
    · obtain ⟨data, stored⟩ :=
        Option.isSome_iff_exists.mp ((storeChunk_run run here).2 there accepted)
      obtain ⟨call, mem, hash, rfl⟩ := accounted _ _ stored
      rw [labelled call mem _ List.mem_cons_self hash] at stored
      exact settles_getChunkData stored
    · apply ih before
      intro call mem call' mem'
      exact labelled call (List.mem_cons_of_mem _ mem) call' (List.mem_cons_of_mem _ mem')

/-- The disk is full once some of the bytes have been written. -/
def diskFull (written : Nat) : Choice :=
  { failure := some "No space left on device", written := some written }

/-- The chunk of one byte is stored, after a write that failed with nothing written yet. -/
theorem returned_of_whole_sample :
    ∃ calls w, Stores ⟨"/store"⟩ calls w ∧
      calls.map (·.result) = [.ok false, .error "No space left on device"] ∧
      ∀ call ∈ calls, ∀ there, call.result = .ok there →
        Settles act Choice.Quiet (ChunkStore.getChunkData ⟨"/store"⟩ call.chunk.hash).run call.after
          (.ok call.chunk.data) call.after := by
  have stores : Stores ⟨"/store"⟩
      [⟨Chunk.new sampleHash 0 [1], [{}, {}, {}], .ok false,
          World.empty.put (ChunkStore.chunkPath ⟨"/store"⟩ (sampleHash [1])) [1]⟩,
        ⟨Chunk.new sampleHash 0 [1], [{}, {}, { failure := some "No space left on device" }],
          .error "No space left on device", .empty⟩] _ := .call (.call .none rfl) rfl
  refine ⟨_, _, stores, rfl, returned_of_whole stores ?_ ?_⟩
  · simp [Call.Whole, Choice.Whole]
  · simp

/-- A chunk that is left with none of its bytes by a write that fails is accepted afterwards, and
`get_chunk_data` returns nothing of it. -/
theorem cut_short_accepted :
    ∃ calls w, Stores ⟨"/store"⟩ calls w ∧
      calls.map (fun call => (call.chunk.hash, call.chunk.data, call.result)) =
        [(sampleHash [1], [1], .ok true), (sampleHash [1], [1], .error "No space left on device")] ∧
      Settles act Choice.Quiet (ChunkStore.getChunkData ⟨"/store"⟩ (sampleHash [1])).run w (.ok []) w := by
  have stores : Stores ⟨"/store"⟩
      [⟨Chunk.new sampleHash 0 [1], [{}], .ok true,
          World.empty.put (ChunkStore.chunkPath ⟨"/store"⟩ (sampleHash [1])) []⟩,
        ⟨Chunk.new sampleHash 0 [1], [{}, {}, diskFull 0], .error "No space left on device",
          World.empty.put (ChunkStore.chunkPath ⟨"/store"⟩ (sampleHash [1])) []⟩] _ :=
    .call (.call .none rfl) rfl
  refine ⟨_, _, stores, rfl, settles_getChunkData ?_⟩
  rw [stored_put, if_pos rfl]

end Casync
