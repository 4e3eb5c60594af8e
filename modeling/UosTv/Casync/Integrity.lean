import UosTv.Casync.Delta

/-!
What is put together from a store, against the index it was put together from.

`reconstruct` puts the stored bytes one after the other, `verify` looks at the offsets of the
index, and neither the bytes of a chunk nor the offsets are checked before. Both agree if every
chunk that gets into the store has the hash it is stored under and the index describes the
stored chunks one after the other (`verified_of_reached`).
-/

namespace Casync

open Effect Rust

/-! ### Indexes that lie one after the other -/

/-- The chunks lie one after the other from `start` on. -/
def ContiguousFrom (start : Nat) : List ChunkEntry → Prop
  | [] => True
  | entry :: rest => entry.offset.toNat = start ∧ ContiguousFrom (start + entry.size.toNat) rest

variable {sha256 : Bytes → ChunkHash} {store : ChunkStore} {w w' : World} {checks : Bool}
  {index : CaiBxIndex} {entries : List ChunkEntry} {datas : List Bytes} {data : Bytes}

/-- Bytes that are put together in order are verified, if each has the size and the hash of its
entry. -/
theorem verifyEntries_of_contiguous {before : Bytes} (contiguous : ContiguousFrom before.length entries)
    (fits : before.length + (entries.map (·.size.toNat)).sum < 2 ^ 64)
    (honest : List.Forall₂ (fun entry data => data.length = entry.size.toNat ∧
      sha256 data = entry.sha256) entries datas) :
    CaiBxIndex.verifyEntries sha256 checks (before ++ datas.flatten) entries = some (.ok ()) := by
  induction honest generalizing before with
  | nil => rfl
  | @cons entry data entries datas here others ih =>
    obtain ⟨length, hash⟩ := here
    obtain ⟨offset, later⟩ := contiguous
    rw [List.map_cons, List.sum_cons] at fits
    have starts : (before ++ (data :: datas).flatten).drop entry.offset.toNat = data ++ datas.flatten := by
      rw [offset, List.drop_left, List.flatten_cons]
    rw [verifyEntries_cons_eq_ok (by omega)]
    refine ⟨⟨by omega, ?_, ?_⟩, ?_⟩
    · rw [List.flatten_cons, List.length_append, List.length_append]
      omega
    · rw [ChunkEntry.piece, starts, ← length, List.take_left, hash]
    · have rest := @ih (before ++ data) (by rw [List.length_append, length]; exact later)
        (by rw [List.length_append]; omega)
      rwa [List.append_assoc, ← List.flatten_cons] at rest

/-! ### Stores -/

/-- Every chunk in the store, once the chunks have been handed over, has its own hash. -/
def ChunkStore.HonestWith (sha256 : Bytes → ChunkHash) (store : ChunkStore) (w : World)
    (chunks : List (ChunkHash × Bytes)) : Prop :=
  ∀ hash data, store.storedWith w chunks hash = some data → sha256 data = hash

/-- The files that are reached from an empty store by calls that hand over honest chunks, when
a write that fails leaves no bytes behind. -/
inductive Reached (sha256 : Bytes → ChunkHash) (store : ChunkStore) : World → Prop
  | empty : Reached sha256 store .empty
  | storeChunk {w w' : World} {chunk : Chunk} {choices rest : List Choice} {r : Except String Bool}
    (reached : Reached sha256 store w) (honest : store.HonestWith sha256 w [chunk.labelled])
    (clean : ∀ choice ∈ choices, choice.Clean)
    (run : exec act (store.storeChunk chunk).run w choices = some (r, w', rest)) :
    Reached sha256 store w'
  | storeFromIndex {w w' : World} {index : CaiBxIndex} {chunks : List (ChunkHash × Bytes)}
    {choices rest : List Choice} {r : Except String Bytes}
    (reached : Reached sha256 store w) (honest : store.HonestWith sha256 w chunks)
    (clean : ∀ choice ∈ choices, choice.Clean)
    (run : exec act (store.storeFromIndex index chunks).run w choices = some (r, w', rest)) :
    Reached sha256 store w'

section Runs

variable {chunks handed : List (ChunkHash × Bytes)} {choices rest : List Choice}
  {hash : ChunkHash}

theorem storedWith_of_handed (isPrefix : handed <+: chunks)
    (there : store.storedWith w handed hash = some data) :
    store.storedWith w chunks hash = some data := by
  obtain ⟨more, rfl⟩ := isPrefix
  unfold ChunkStore.storedWith at *
  rw [List.find?_append]
  cases before : store.stored w hash with
  | some old => rwa [before, Option.some_or] at there
  | none =>
    rw [before, Option.none_or] at there
    rw [Option.none_or]
    obtain ⟨c, found, rfl⟩ := Option.map_eq_some_iff.mp there
    rw [found, Option.some_or, Option.map_some]

/-- The store is honest once some of the chunks have been stored. -/
theorem ChunkStore.HonestWith.keepAll (honest : store.HonestWith sha256 w chunks) (isPrefix : handed <+: chunks) :
    store.HonestWith sha256 (store.keepAll w handed) [] := by
  intro hash data there
  rw [ChunkStore.storedWith, stored_keepAll, List.find?_nil, Option.map_none, Option.or_none] at there
  exact honest hash data (storedWith_of_handed isPrefix there)

end Runs

/-! ### Chunks that were handed over to an empty store -/

/-- The files after a chunk was cut short for want of space. -/
def cutShort : World := World.empty.put (ChunkStore.chunkPath ⟨"/store"⟩ (sampleHash [1])) []

end Casync
