import UosTv.Casync.Locality

/-!
How chunks lie in the string they are cut from.

Both strategies cut where a predicate on the bytes since the last cut says so
(`chunkBytes_eq`), so their chunks are segments placed one behind the other. They tile the
string, none of them is empty, and their sizes are as the strategy says (`chunkBytes_tiles`).
-/

namespace Casync

open Rust Segments

namespace ChunkingStrategy

/-- Whether the strategy cuts behind these bytes since the last cut. -/
def cuts : ChunkingStrategy → Bytes → Bool
  | .fixed size, current => size ≤ current.length
  | .gearHash minSize maxSize mask, current => gearCuts minSize maxSize mask current

/-- The largest size of a chunk. -/
def limit : ChunkingStrategy → Nat
  | .fixed size => size
  | .gearHash _ maxSize _ => maxSize

/-- The smallest size of a chunk that is not the last. -/
def least : ChunkingStrategy → Nat
  | .fixed size => size
  | .gearHash minSize maxSize _ => min minSize maxSize

variable {strategy : ChunkingStrategy} {current : Bytes}

theorem cuts_of_limit (full : strategy.limit ≤ current.length) : strategy.cuts current = true := by
  cases strategy with
  | fixed size => exact decide_eq_true full
  | gearHash minSize maxSize mask => exact decide_eq_true (.inr full)

theorem least_of_cuts (cut : strategy.cuts current = true) : strategy.least ≤ current.length := by
  cases strategy with
  | fixed size => exact of_decide_eq_true cut
  | gearHash minSize maxSize mask =>
    rcases of_decide_eq_true cut with ⟨-, filled⟩ | full
    · exact (Nat.min_le_left _ _).trans filled
    · exact (Nat.min_le_right _ _).trans full

end ChunkingStrategy

variable {sha256 : Bytes → ChunkHash} {strategy : ChunkingStrategy} {data : Bytes} {start : Nat}
  {segs : List Bytes} {chunks before after : List Chunk} {c : Chunk}

/-! ### Chunks are placed segments -/

/-- Slices are cut behind every `size` bytes. -/
theorem slices_eq {size fuel : Nat} {current : Bytes} (short : current.length < size)
    (enough : (current ++ data).length ≤ fuel) : slices size fuel (current ++ data) =
      segmentsFrom (ChunkingStrategy.fixed size).cuts current data := by
  induction data generalizing current fuel with
  | nil =>
    rw [List.append_nil] at enough ⊢
    cases current with
    | nil => cases fuel <;> rfl
    | cons byte current =>
      obtain ⟨fuel, rfl⟩ := Nat.exists_eq_succ_of_ne_zero (Nat.ne_of_gt (Nat.lt_of_lt_of_le (by simp) enough))
      have whole := Nat.le_of_lt short
      change (byte :: current).take size :: slices size fuel ((byte :: current).drop size) = _
      rw [List.take_of_length_le whole, List.drop_of_length_le whole]
      cases fuel <;> rfl
  | cons byte data ih =>
    rw [List.append_cons] at enough ⊢
    rw [segmentsFrom]
    by_cases cut : (ChunkingStrategy.fixed size).cuts (current ++ [byte]) = true
    · have full : size ≤ (current ++ [byte]).length := of_decide_eq_true cut
      have exactly : (current ++ [byte]).length = size := by
        rw [List.length_append, List.length_singleton] at full ⊢
        omega
      rw [if_pos cut]
      cases fuel with
      | zero => simp at enough
      | succ fuel =>
        have step : slices size (fuel + 1) (current ++ [byte] ++ data) =
            (current ++ [byte] ++ data).take size ::
              slices size fuel ((current ++ [byte] ++ data).drop size) := by
          rw [← List.append_cons]
          cases current <;> rfl
        have positive : ([] : Bytes).length < size := Nat.lt_of_le_of_lt (Nat.zero_le _) short
        have rest : ([] ++ data).length ≤ fuel := by
          simp only [List.length_append, List.length_singleton, List.length_nil] at enough ⊢
          omega
        rw [step, List.take_left' exactly, List.drop_left' exactly]
        exact congrArg _ (ih positive rest)
    · rw [if_neg cut]
      exact ih (Nat.lt_of_not_le fun full => cut (decide_eq_true full)) enough

theorem fixedFrom_eq : fixedFrom sha256 (.ofNat start) segs = placed sha256 start segs := by
  induction segs generalizing start with
  | nil => rfl
  | cons seg segs ih => rw [fixedFrom, placed, ← UInt64.ofNat_add, ih]

/-- The chunks are the segments between the cuts, placed one behind the other. -/
theorem chunkBytes_eq (positive : 1 ≤ strategy.limit) :
    chunkBytes sha256 strategy data = some (placed sha256 0 (segments strategy.cuts data)) := by
  cases strategy with
  | fixed size =>
    have start : ([] : Bytes).length < size := positive
    have split : slices size data.length ([] ++ data) = _ := slices_eq start (Nat.le_refl _)
    rw [List.nil_append] at split
    have fixed : fixedFrom sha256 0 (slices size data.length data) =
        placed sha256 0 (slices size data.length data) := fixedFrom_eq
    have some_size : size ≠ 0 := Nat.ne_of_gt positive
    rw [chunkBytes, chunkFixed, if_neg some_size, fixed, split]
    rfl
  | gearHash minSize maxSize mask =>
    rw [chunkBytes, chunkGear_eq]
    rfl

/-! ### Offsets and sizes -/

/-- No segment is larger than the strategy says. -/
theorem length_le_limit (positive : 1 ≤ strategy.limit) :
    ∀ seg ∈ segments strategy.cuts data, seg.length ≤ strategy.limit := by
  have start : ([] : Bytes).length < strategy.limit := positive
  exact length_le_of_mem_segmentsFrom (fun _ full => ChunkingStrategy.cuts_of_limit full) start

theorem toNat_offset_new (fits : start < 2 ^ 64) :
    (Chunk.new sha256 (.ofNat start) data).offset.toNat = start :=
  UInt64.toNat_ofNat_of_lt' fits

theorem toNat_size_new {offset : UInt64} (small : data.length < 2 ^ 32) :
    (Chunk.new sha256 offset data).size.toNat = data.length :=
  UInt32.toNat_ofNat_of_lt' small

/-- Every segment fits the size field of a chunk. -/
theorem length_segments (small : strategy.limit < 2 ^ 32) (positive : 1 ≤ strategy.limit) :
    ∀ seg ∈ segments strategy.cuts data, seg.length < 2 ^ 32 := by
  intro seg mem
  exact Nat.lt_of_le_of_lt (length_le_limit positive seg mem) small

/-- The sizes of chunks sum up to the number of their bytes. -/
theorem sum_size_placed (small : ∀ seg ∈ segs, seg.length < 2 ^ 32) :
    ((placed sha256 start segs).map (·.size.toNat)).sum = segs.flatten.length := by
  induction segs generalizing start with
  | nil => rfl
  | cons seg segs ih =>
    obtain ⟨here, others⟩ := List.forall_mem_cons.mp small
    rw [placed, List.map_cons, List.sum_cons, ih others, toNat_size_new here, List.flatten_cons,
      List.length_append]

/-- The sum of sizes as one of `u64`. -/
theorem sum_toUInt64 (chunks : List Chunk) : (chunks.map (·.size.toUInt64)).sum =
    .ofNat (chunks.map (·.size.toNat)).sum := by
  induction chunks with
  | nil => rfl
  | cons c chunks ih =>
    rw [List.map_cons, List.sum_cons, ih, List.map_cons, List.sum_cons, UInt64.ofNat_add]
    congr 1
    apply UInt64.toNat_inj.mp
    rw [UInt32.toNat_toUInt64, UInt64.toNat_ofNat_of_lt']
    exact Nat.lt_trans c.size.toNat_lt (by decide)

/-- A chunk among others is a segment, placed behind those before it. -/
theorem split_placed_cons (split : placed sha256 start segs = before ++ c :: after) :
    ∃ front seg back, segs = front ++ seg :: back ∧ before = placed sha256 start front ∧
      c = Chunk.new sha256 (.ofNat (start + front.flatten.length)) seg ∧
      (after ≠ [] → back ≠ []) := by
  obtain ⟨front, back, parts, here, rest, -⟩ := split_placed split
  cases back with
  | nil => cases rest
  | cons seg back =>
    obtain ⟨same, others⟩ := List.cons.inj rest
    refine ⟨front, seg, back, parts, here, same, fun more => ?_⟩
    rintro rfl
    exact more others

/-- The chunks tile the string: each begins where those before it end, has the size of its bytes
and is not empty. No chunk is larger than the strategy says, and only the last may be smaller. -/
theorem chunkBytes_tiles (positive : 1 ≤ strategy.limit) (small : strategy.limit < 2 ^ 32) :
    ∃ chunks, chunkBytes sha256 strategy data = some chunks ∧ content chunks = data ∧
      ∀ (before : List Chunk) (c : Chunk) (after : List Chunk), chunks = before ++ c :: after →
        c.offset = (before.map (·.size.toUInt64)).sum ∧
        (data.length < 2 ^ 64 → c.offset.toNat = (before.map (·.size.toNat)).sum) ∧
        c.size.toNat = c.data.length ∧ c.data ≠ [] ∧
        c.data.length ≤ strategy.limit ∧ (after ≠ [] → strategy.least ≤ c.data.length) := by
  have chunked : chunkBytes sha256 strategy data = some _ := chunkBytes_eq positive
  refine ⟨_, chunked, data_of_chunkBytes chunked, ?_⟩
  intro before c after split
  obtain ⟨front, seg, back, parts, rfl, rfl, more⟩ := split_placed_cons split
  have fit : ∀ seg ∈ segments strategy.cuts data, seg.length < 2 ^ 32 :=
    length_segments small positive
  have mem : seg ∈ segments strategy.cuts data := by
    rw [parts]
    exact List.mem_append_right _ List.mem_cons_self
  have front_small : ∀ seg ∈ front, seg.length < 2 ^ 32 := by
    intro seg mem
    have within : seg ∈ segments strategy.cuts data := by
      rw [parts]
      exact List.mem_append_left _ mem
    exact fit seg within
  rw [sum_toUInt64, sum_size_placed front_small, Nat.zero_add]
  refine ⟨rfl, fun inMemory => ?_, toNat_size_new (fit seg mem), ?_,
    length_le_limit positive seg mem, fun more' => ?_⟩
  · have length := congrArg List.length (flatten_segments strategy.cuts data)
    rw [parts, List.flatten_append, List.length_append] at length
    exact toNat_offset_new (Nat.lt_of_le_of_lt (by omega) inMemory)
  · intro (empty : seg = [])
    exact not_mem_segments _ data (empty ▸ mem)
  · exact ChunkingStrategy.least_of_cuts (cuts_of_ne_nil parts (more more'))

theorem chunkBytes_tiles_pairs :
    let padded : Bytes → ChunkHash :=
      fun data => ⟨(data ++ List.replicate 32 0).take 32, length_padded data⟩
    ∃ chunks, chunkBytes padded (.fixed 2) [1, 2, 3] = some chunks ∧ content chunks = [1, 2, 3] ∧
      ∀ (before : List Chunk) (c : Chunk) (after : List Chunk), chunks = before ++ c :: after →
        c.offset = (before.map (·.size.toUInt64)).sum ∧
        (3 < 2 ^ 64 → c.offset.toNat = (before.map (·.size.toNat)).sum) ∧
        c.size.toNat = c.data.length ∧ c.data ≠ [] ∧
        c.data.length ≤ 2 ∧ (after ≠ [] → 2 ≤ c.data.length) :=
  chunkBytes_tiles (by decide) (by decide)

end Casync
