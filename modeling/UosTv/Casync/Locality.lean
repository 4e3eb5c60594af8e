import UosTv.Casync.Chunker
import UosTv.Lib.Segments

/-!
Chunks of strings that differ in one place.

`chunk_gear` decides on a cut from the bytes since the last cut and from nothing else
(`gearFrom_eq`), so its chunks are the segments of `Lib/Segments`, placed one behind the other.
A string is therefore cut behind a cut as if it began there, and before it whatever comes later.
-/

namespace Casync

open Rust Segments

/-- The hash that the loop of `chunk_gear` has rolled over the bytes since the last cut. -/
def gearHash (current : Bytes) : UInt64 :=
  current.foldl (fun hash byte => (hash <<< 1) + gearTable byte) 0

/-- Whether the loop of `chunk_gear` cuts behind these bytes since the last cut: `is_boundary` or
`forced`. -/
def gearCuts (minSize maxSize : Nat) (mask : UInt64) (current : Bytes) : Bool :=
  (gearHash current &&& mask = 0 ∧ minSize ≤ current.length) ∨ maxSize ≤ current.length

/-- A chunk with another string of `amount` bytes put before it. -/
def Chunk.shift (amount : Nat) (c : Chunk) : Chunk := { c with offset := .ofNat amount + c.offset }

/-- Chunks of these bytes, one behind the other. -/
def placed (sha256 : Bytes → ChunkHash) (start : Nat) : List Bytes → List Chunk
  | [] => []
  | seg :: rest => Chunk.new sha256 (.ofNat start) seg :: placed sha256 (start + seg.length) rest

variable {sha256 : Bytes → ChunkHash} {minSize maxSize : Nat} {mask : UInt64} {start : Nat}
  {current data : Bytes} {segs : List Bytes} {before after : List Chunk}

theorem gearHash_append (byte : UInt8) :
    gearHash (current ++ [byte]) = (gearHash current <<< 1) + gearTable byte := by
  rw [gearHash, List.foldl_append]
  rfl

/-- The chunks are the segments, placed one behind the other. -/
theorem gearFrom_eq : gearFrom sha256 minSize maxSize mask start (gearHash current) current data =
    placed sha256 start (segmentsFrom (gearCuts minSize maxSize mask) current data) := by
  induction data generalizing start current with
  | nil =>
    rw [gearFrom, segmentsFrom]
    cases current <;> rfl
  | cons byte data ih =>
    rw [gearFrom, segmentsFrom]
    simp only [← gearHash_append]
    by_cases cut : gearCuts minSize maxSize mask (current ++ [byte]) = true
    · rw [if_pos cut, if_pos (of_decide_eq_true cut), placed]
      have rest : gearFrom sha256 minSize maxSize mask (start + (current ++ [byte]).length)
          (gearHash []) [] data = _ := ih
      exact congrArg _ rest
    · rw [if_neg cut, if_neg (fun cuts => cut (decide_eq_true cuts))]
      exact ih

theorem chunkGear_eq : chunkGear sha256 data minSize maxSize mask =
    placed sha256 0 (segments (gearCuts minSize maxSize mask) data) := by
  have whole : gearFrom sha256 minSize maxSize mask 0 (gearHash []) [] data = _ := gearFrom_eq
  exact whole

theorem data_placed : (placed sha256 start segs).map (·.data) = segs := by
  induction segs generalizing start with
  | nil => rfl
  | cons seg segs ih =>
    rw [placed, List.map_cons, ih]
    rfl

theorem content_eq (chunks : List Chunk) : content chunks = (chunks.map (·.data)).flatten :=
  List.flatMap_def

theorem placed_append {more : List Bytes} : placed sha256 start (segs ++ more) =
    placed sha256 start segs ++ placed sha256 (start + segs.flatten.length) more := by
  induction segs generalizing start with
  | nil => rfl
  | cons seg segs ih =>
    rw [List.cons_append, placed, placed, ih, List.flatten_cons, List.length_append, Nat.add_assoc]
    rfl

theorem shift_placed (amount : Nat) :
    (placed sha256 start segs).map (.shift amount) = placed sha256 (amount + start) segs := by
  induction segs generalizing start with
  | nil => rfl
  | cons seg segs ih =>
    rw [placed, placed, List.map_cons, ih, Nat.add_assoc]
    congr 1
    rw [Chunk.shift, Chunk.new, Chunk.new, UInt64.ofNat_add]

/-- A split of the chunks is a split of the segments. -/
theorem split_placed (split : placed sha256 start segs = before ++ after) :
    ∃ front back, segs = front ++ back ∧ before = placed sha256 start front ∧
      after = placed sha256 (start + front.flatten.length) back ∧ content before = front.flatten := by
  have parts : segs = before.map (·.data) ++ after.map (·.data) := by
    rw [← List.map_append, ← split, data_placed]
  have placed' := split
  rw [parts, placed_append] at placed'
  obtain ⟨front, back⟩ := List.append_inj placed' (by
    rw [← List.length_map (f := (·.data)), data_placed, List.length_map])
  exact ⟨_, _, parts, front.symm, back.symm, content_eq before⟩

/-- After a cut at the end of `a` the rest is cut as if the string began there. -/
theorem chunkGear_of_cut {a s : Bytes}
    (split : chunkGear sha256 (a ++ s) minSize maxSize mask = before ++ after)
    (cut : (content before).length = a.length) :
    before = chunkGear sha256 a minSize maxSize mask ∧
      after = (chunkGear sha256 s minSize maxSize mask).map (.shift a.length) := by
  rw [chunkGear_eq] at split
  obtain ⟨front, back, segs, rfl, rfl, bytes⟩ := split_placed split
  rw [bytes] at cut
  obtain ⟨rfl, rfl⟩ := segments_of_cut segs cut
  rw [chunkGear_eq, chunkGear_eq, shift_placed, cut, Nat.zero_add, Nat.add_zero]
  exact ⟨rfl, rfl⟩

/-- A chunk that a cut in `p` closes is closed there whatever comes behind `p`. -/
theorem chunkGear_closed {p x : Bytes} {c : Chunk} (y : Bytes)
    (split : chunkGear sha256 (p ++ x) minSize maxSize mask = before ++ c :: after)
    (closed : gearCuts minSize maxSize mask c.data = true)
    (within : (content (before ++ [c])).length ≤ p.length) :
    before ++ [c] <+: chunkGear sha256 (p ++ y) minSize maxSize mask := by
  rw [chunkGear_eq] at split ⊢
  have parts : placed sha256 0 _ = (before ++ [c]) ++ after := split.trans (by simp)
  obtain ⟨front, back, segs, whole, rfl, bytes⟩ := split_placed parts
  have datas : front = before.map (·.data) ++ [c.data] := by
    have segs_front : (placed sha256 0 front).map (·.data) = front := data_placed
    rw [← segs_front, ← whole]
    simp
  rw [datas, List.append_assoc] at segs
  rw [bytes, datas] at within
  obtain ⟨more, longer⟩ := prefix_closed (y := y) segs closed within
  rw [whole, ← longer, ← datas, placed_append]
  exact List.prefix_append _ _

/-- Editing a string leaves the chunks before the edit as they are, and those behind it, from
a cut on that both versions have. -/
theorem edit_locality :
    (∀ a s before after, chunkGear sha256 (a ++ s) minSize maxSize mask = before ++ after →
      (content before).length = a.length →
      before = chunkGear sha256 a minSize maxSize mask ∧
        after = (chunkGear sha256 s minSize maxSize mask).map (.shift a.length)) ∧
    (∀ p x y before c after,
      chunkGear sha256 (p ++ x) minSize maxSize mask = before ++ c :: after →
      gearCuts minSize maxSize mask c.data = true →
      (content (before ++ [c])).length ≤ p.length →
      ∃ after', chunkGear sha256 (p ++ y) minSize maxSize mask = before ++ c :: after') ∧
    ∀ p x y s before after before' after',
      chunkGear sha256 (p ++ x ++ s) minSize maxSize mask = before ++ after →
      (content before).length = (p ++ x).length →
      chunkGear sha256 (p ++ y ++ s) minSize maxSize mask = before' ++ after' →
      (content before').length = (p ++ y).length →
      after.map (·.hash) = after'.map (·.hash) := by
  constructor
  · intro a s before after split cut
    exact chunkGear_of_cut split cut
  constructor
  · intro p x y before c after split closed within
    obtain ⟨after', whole⟩ := chunkGear_closed y split closed within
    exact ⟨after', by rw [← whole, List.append_assoc]; rfl⟩
  · intro p x y s before after before' after' split cut split' cut'
    rw [(chunkGear_of_cut split cut).2, (chunkGear_of_cut split' cut').2, List.map_map,
      List.map_map]
    rfl

/-- Two versions of five and seven bytes, cut after every second one. -/
theorem edit_locality_pairs :
    let padded : Bytes → ChunkHash :=
      fun data => ⟨(data ++ List.replicate 32 0).take 32, length_padded data⟩
    ((chunkGear padded [1, 2, 5, 6, 7] 0 2 255).drop 1).map (·.hash) =
      ((chunkGear padded [1, 3, 4, 8, 5, 6, 7] 0 2 255).drop 2).map (·.hash) := by
  intro padded
  apply edit_locality.2.2 [1] [2] [3, 4, 8] [5, 6, 7] _ _ _ _ (List.take_append_drop 1 _).symm _
    (List.take_append_drop 2 _).symm
  · rfl
  · rfl

end Casync
