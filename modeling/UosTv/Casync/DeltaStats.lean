import Mathlib.Algebra.Order.BigOperators.Group.List
import UosTv.Casync.Verification

/-!
What `delta_stats` counts.

The missing chunks are counted over a set of hashes, the missing bytes over the list of the
chunks. So the bytes are those of the chunks that are downloaded iff no missing chunk occurs
twice (`deltaStats_missing_iff`).
-/

namespace Casync

open Rust Segments

structure DeltaStats where
  totalChunks : UInt32
  missingChunks : UInt32
  totalBytes : UInt64
  missingBytes : UInt64
  savingsPercent : Float

/-- `delta_stats`. The numbers of chunks are truncated to a `u32`. -/
def CaiBxIndex.deltaStats (old new : CaiBxIndex) : DeltaStats :=
  let missing := diff old new
  let totalNew := (new.chunks.map (·.size.toUInt64)).sum
  let missingBytes := ((new.chunks.filter (·.sha256 ∈ missing)).map (·.size.toUInt64)).sum
  { totalChunks := .ofNat new.chunks.length
    missingChunks := .ofNat missing.elems.length
    totalBytes := totalNew
    missingBytes := missingBytes
    savingsPercent :=
      if 0 < totalNew then 100.0 - missingBytes.toFloat / totalNew.toFloat * 100.0 else 0.0 }

/-! ### Sums over lists with repetitions -/

section Sums

variable {α : Type} {f : α → Nat} {short long distinct : List α}

/-- When something is left out, the sum is less. -/
theorem eq_of_sublist_of_sum_eq (sub : short.Sublist long) (positive : ∀ a ∈ long, 0 < f a)
    (same : (short.map f).sum = (long.map f).sum) : short = long := by
  induction sub with
  | slnil => rfl
  | @cons short long a sub ih =>
    exfalso
    have less : (short.map f).sum ≤ (long.map f).sum := (sub.map f).sum_le_sum fun _ _ => Nat.zero_le _
    have here := positive a List.mem_cons_self
    rw [List.map_cons, List.sum_cons] at same
    omega
  | @cons_cons short long a sub ih =>
    obtain ⟨-, positive⟩ := List.forall_mem_cons.mp positive
    rw [List.map_cons, List.map_cons, List.sum_cons, List.sum_cons, Nat.add_left_cancel_iff] at same
    rw [ih positive same]

/-- The sum over a list is that over its members iff none is repeated. -/
theorem sum_eq_sum_distinct_iff [DecidableEq α] (nodup : distinct.Nodup)
    (members : ∀ a, a ∈ distinct ↔ a ∈ long) (positive : ∀ a ∈ long, 0 < f a) :
    (long.map f).sum = (distinct.map f).sum ↔ long.Nodup := by
  have perm : distinct.Perm long.dedup := by
    rw [List.perm_ext_iff_of_nodup nodup long.nodup_dedup]
    intro a
    rw [members, List.mem_dedup]
  rw [(perm.map f).sum_nat, ← List.dedup_eq_self]
  constructor
  · intro same
    exact eq_of_sublist_of_sum_eq long.dedup_sublist positive same.symm
  · intro same
    rw [same]

end Sums

/-! ### Missing bytes -/

variable {sha256 : Bytes → ChunkHash} {strategy : ChunkingStrategy} {data : Bytes}
  {chunks : List Chunk} {target : UInt32} {old : CaiBxIndex} {size : ChunkHash → Nat}

/-- The hashes of the missing chunks, in the order of the file. -/
def missingHashes (old : CaiBxIndex) (chunks : List Chunk) (target : UInt32) : List ChunkHash :=
  (chunks.map (·.hash)).filter (· ∈ CaiBxIndex.diff old (.fromChunks chunks target))

theorem mem_missingHashes {hash : ChunkHash} : hash ∈ missingHashes old chunks target ↔
    hash ∈ CaiBxIndex.diff old (.fromChunks chunks target) := by
  rw [missingHashes, List.mem_filter, decide_eq_true_iff]
  refine and_iff_right_of_imp fun missing => ?_
  have inNew := (CaiBxIndex.mem_diff.mp missing).1
  rwa [CaiBxIndex.hashes_fromChunks] at inNew

/-- No hash is repeated iff each missing one occurs once in the new file. -/
theorem nodup_missingHashes : (missingHashes old chunks target).Nodup ↔
    ∀ hash ∈ CaiBxIndex.diff old (.fromChunks chunks target), (chunks.map (·.hash)).count hash = 1 := by
  rw [List.nodup_iff_count_eq_one]
  refine forall_congr' fun hash => ?_
  rw [mem_missingHashes]
  refine forall_congr' fun missing => ?_
  have kept : decide (hash ∈ CaiBxIndex.diff old (.fromChunks chunks target)) = true :=
    decide_eq_true missing
  have same : ((chunks.map (·.hash)).filter
      (· ∈ CaiBxIndex.diff old (.fromChunks chunks target))).count hash =
        (chunks.map (·.hash)).count hash := List.count_filter kept
  rw [missingHashes, same]

/-- The bytes that are counted are those of the missing chunks, as often as they occur. -/
theorem missingBytes_deltaStats (inMemory : (content chunks).length < 2 ^ 64)
    (sizes : ∀ c ∈ chunks, c.size.toNat = c.data.length)
    (named : ∀ c ∈ chunks, size c.hash = c.data.length) :
    (CaiBxIndex.deltaStats old (.fromChunks chunks target)).missingBytes.toNat =
      ((missingHashes old chunks target).map size).sum := by
  have counted : ((missingHashes old chunks target).map size).sum = ((chunks.filter fun c =>
      c.hash ∈ CaiBxIndex.diff old (.fromChunks chunks target)).map (·.size.toNat)).sum := by
    rw [missingHashes, List.filter_map, List.map_map]
    congr 1
    apply List.map_congr_left
    intro c mem
    have inNew := List.mem_of_mem_filter mem
    exact (named c inNew).trans (sizes c inNew).symm
  have total : (chunks.map (·.size.toNat)).sum = (content chunks).length := by
    rw [content, List.length_flatMap]
    exact congrArg _ (List.map_congr_left sizes)
  have part := (List.filter_sublist (l := chunks) (p := fun c =>
    c.hash ∈ CaiBxIndex.diff old (.fromChunks chunks target))).map (·.size.toNat)
  have fits := part.sum_le_sum fun _ _ => Nat.zero_le _
  have entries : (CaiBxIndex.deltaStats old (.fromChunks chunks target)).missingBytes =
      ((chunks.filter fun c => c.hash ∈ CaiBxIndex.diff old (.fromChunks chunks target)).map
        (·.size.toUInt64)).sum := by
    change (((chunks.map Chunk.entry).filter _).map _).sum = _
    rw [List.filter_map, List.map_map]
    rfl
  rw [entries, sum_toUInt64, counted]
  exact UInt64.toNat_ofNat_of_lt' (Nat.lt_of_le_of_lt (fits.trans (Nat.le_of_eq total)) inMemory)

/-- The missing bytes and chunks are those that a client needs which downloads every missing chunk
once, iff no missing chunk occurs twice and their number is one of `u32`. -/
theorem deltaStats_missing_iff (positive : 1 ≤ strategy.limit) (small : strategy.limit < 2 ^ 32)
    (inMemory : data.length < 2 ^ 63) (chunked : chunkBytes sha256 strategy data = some chunks)
    (named : ∀ c ∈ chunks, size c.hash = c.data.length) :
    ((CaiBxIndex.deltaStats old (.fromChunks chunks target)).missingBytes.toNat =
        ((CaiBxIndex.diff old (.fromChunks chunks target)).elems.map size).sum ∧
      (CaiBxIndex.deltaStats old (.fromChunks chunks target)).missingChunks.toNat =
        (CaiBxIndex.diff old (.fromChunks chunks target)).elems.length) ↔
    (∀ hash ∈ CaiBxIndex.diff old (.fromChunks chunks target),
      (chunks.map (·.hash)).count hash = 1) ∧
    (CaiBxIndex.diff old (.fromChunks chunks target)).elems.length < 2 ^ 32 := by
  obtain ⟨chunks', chunked', whole, tiles⟩ := chunkBytes_tiles positive small
  obtain rfl := Option.some.inj (chunked.symm.trans chunked')
  have each : ∀ c ∈ chunks, c.size.toNat = c.data.length ∧ c.data ≠ [] := by
    intro c mem
    obtain ⟨before, after, split⟩ := List.append_of_mem mem
    obtain ⟨-, -, size, filled, -⟩ := tiles before c after split
    exact ⟨size, filled⟩
  have filled : ∀ hash ∈ missingHashes old chunks target, 0 < size hash := by
    intro hash missing
    obtain ⟨c, mem, rfl⟩ := List.mem_map.mp (List.mem_of_mem_filter missing)
    rw [named c mem]
    exact List.length_pos_of_ne_nil (each c mem).2
  have bytes := @missingBytes_deltaStats chunks target old size (by rw [whole]; omega)
    (fun c mem => (each c mem).1) named
  have distinct := sum_eq_sum_distinct_iff (CaiBxIndex.diff old (.fromChunks chunks target)).nodup
    (fun hash => mem_missingHashes.symm) filled
  have number : (CaiBxIndex.deltaStats old (.fromChunks chunks target)).missingChunks.toNat =
      (CaiBxIndex.diff old (.fromChunks chunks target)).elems.length % 2 ^ 32 := rfl
  rw [bytes, distinct, nodup_missingHashes, number, Nat.mod_eq_iff_lt (by decide)]

theorem deltaStats_missing_sample :
    ((CaiBxIndex.deltaStats (sampleIndex [1, 2]) (sampleIndex [1, 2, 3])).missingBytes.toNat =
        ((CaiBxIndex.diff (sampleIndex [1, 2]) (sampleIndex [1, 2, 3])).elems.map fun hash =>
          if hash = sampleHash [3] then 1 else 2).sum ∧
      (CaiBxIndex.deltaStats (sampleIndex [1, 2]) (sampleIndex [1, 2, 3])).missingChunks.toNat =
        (CaiBxIndex.diff (sampleIndex [1, 2]) (sampleIndex [1, 2, 3])).elems.length) ↔
    (∀ hash ∈ CaiBxIndex.diff (sampleIndex [1, 2]) (sampleIndex [1, 2, 3]),
      ((sampleChunks [1, 2, 3]).map (·.hash)).count hash = 1) ∧
    (CaiBxIndex.diff (sampleIndex [1, 2]) (sampleIndex [1, 2, 3])).elems.length < 2 ^ 32 := by
  have chunked : chunkBytes sampleHash (.fixed 2) [1, 2, 3] = some (sampleChunks [1, 2, 3]) := rfl
  exact deltaStats_missing_iff (by decide) (by decide) (by decide) chunked (by decide)

/-- Two missing chunks that are the same are counted twice: four bytes, where one chunk of two
bytes is missing. -/
theorem repeated_counted :
    (CaiBxIndex.deltaStats (sampleIndex []) (sampleIndex [1, 2, 1, 2])).missingBytes = 4 ∧
    ((CaiBxIndex.diff (sampleIndex []) (sampleIndex [1, 2, 1, 2])).elems.map fun _ => 2).sum = 2 ∧
    (CaiBxIndex.deltaStats (sampleIndex []) (sampleIndex [1, 2, 1, 2])).missingChunks = 1 := by
  decide

end Casync
