import UosTv.Casync.IndexFormat
import UosTv.Casync.Verification
import UosTv.Lib.Bounded

/-!
Where `verify` and `reconstruct` panic.

`from_bytes` looks at the offsets of an index but neither at its sizes nor at its total size.
So the end of a chunk may overflow, and the capacity that is reserved may be any `u64`
(`returns_iff`).
-/

namespace Casync

open Ciborium Effect Rust

/-! ### Verifying -/

/-- The end of the chunk overflows, and it is not taken for an end beyond the data. -/
def ChunkEntry.Overflows (entry : ChunkEntry) (checks : Bool) (data : Bytes) : Prop :=
  2 ^ 64 ≤ entry.offset.toNat + entry.size.toNat ∧
    (checks = true ∨ entry.offset.toNat + entry.size.toNat ≤ 2 ^ 64 + data.length)

variable {sha256 : Bytes → ChunkHash} {checks : Bool} {data : Bytes} {entry : ChunkEntry}
  {entries : List ChunkEntry}

/-- An end that overflows is before the beginning. -/
theorem verifyEntries_cons_of_le (overflows : 2 ^ 64 ≤ entry.offset.toNat + entry.size.toNat) :
    CaiBxIndex.verifyEntries sha256 checks data (entry :: entries) = none ↔
      checks = true ∨ entry.offset.toNat + entry.size.toNat ≤ 2 ^ 64 + data.length := by
  have sum : 2 ^ 64 ≤ entry.offset.toNat + entry.size.toUInt64.toNat := by
    rwa [UInt32.toNat_toUInt64]
  obtain ⟨checked, wraps⟩ := addU64_of_le sum
  rw [CaiBxIndex.verifyEntries]
  cases checks with
  | true =>
    rw [checked]
    exact iff_of_true rfl (.inl rfl)
  | false =>
    rw [wraps]
    have stop := toNat_add_of_le sum
    rw [UInt32.toNat_toUInt64] at stop
    have size := entry.size.toNat_lt
    have before : entry.offset + entry.size.toUInt64 < entry.offset := by
      rw [UInt64.lt_iff_toNat_lt]
      omega
    rw [or_iff_right Bool.false_ne_true]
    simp only [if_pos before]
    split
    · refine iff_of_false (by simp) ?_
      omega
    · refine iff_of_true rfl ?_
      omega

/-- When the end of the first chunk does not overflow, an overflow behind chunks that match is one
behind the first. -/
theorem overflows_cons {first : ChunkEntry} (fits : first.offset.toNat + first.size.toNat < 2 ^ 64) :
    (∃ (before : List ChunkEntry) (entry : ChunkEntry) (rest : List ChunkEntry),
      first :: entries = before ++ entry :: rest ∧ (∀ e ∈ before, e.Matches sha256 data) ∧
        entry.Overflows checks data) ↔
    first.Matches sha256 data ∧
      ∃ (before : List ChunkEntry) (entry : ChunkEntry) (rest : List ChunkEntry),
        entries = before ++ entry :: rest ∧ (∀ e ∈ before, e.Matches sha256 data) ∧
          entry.Overflows checks data := by
  constructor
  · rintro ⟨before, entry, rest, split, verified, panics⟩
    cases before with
    | nil =>
      obtain ⟨rfl, -⟩ := List.cons.inj split
      exact absurd panics.1 (Nat.not_le_of_lt fits)
    | cons e before =>
      obtain ⟨rfl, others⟩ := List.cons.inj split
      obtain ⟨here, verified⟩ := List.forall_mem_cons.mp verified
      exact ⟨here, before, entry, rest, others, verified, panics⟩
  · rintro ⟨here, before, entry, rest, rfl, verified, panics⟩
    exact ⟨first :: before, entry, rest, rfl, List.forall_mem_cons.mpr ⟨here, verified⟩, panics⟩

/-- Verifying panics at the first chunk that does not match, if its end overflows. -/
theorem verifyEntries_eq_none : CaiBxIndex.verifyEntries sha256 checks data entries = none ↔
    ∃ (before : List ChunkEntry) (entry : ChunkEntry) (rest : List ChunkEntry),
      entries = before ++ entry :: rest ∧ (∀ e ∈ before, e.Matches sha256 data) ∧
        entry.Overflows checks data := by
  induction entries with
  | nil => exact iff_of_false (Option.some_ne_none _) (by simp)
  | cons first entries ih =>
    by_cases overflows : 2 ^ 64 ≤ first.offset.toNat + first.size.toNat
    · rw [verifyEntries_cons_of_le overflows]
      constructor
      · intro panics
        exact ⟨[], first, entries, rfl, List.forall_mem_nil _, overflows, panics⟩
      · rintro ⟨before, entry, rest, split, verified, here, panics⟩
        cases before with
        | nil =>
          obtain ⟨rfl, -⟩ := List.cons.inj split
          exact panics
        | cons e before =>
          obtain ⟨rfl, -⟩ := List.cons.inj split
          have fits := (verified first List.mem_cons_self).fits
          omega
    · have fits := Nat.lt_of_not_le overflows
      rw [overflows_cons fits, ← ih]
      rcases @verifyEntries_cons sha256 checks data first entries fits with
        ⟨matching, rest⟩ | ⟨differs, e, ends⟩
      · rw [rest, and_iff_right matching]
      · rw [ends]
        exact iff_of_false (Option.some_ne_none _) fun both => differs both.1

/-! ### Putting together -/

variable {store : ChunkStore} {index : CaiBxIndex} {w : World} {output : Bytes}

/-- The capacity is not asked for. -/
def Op.Light : Op → Prop
  | .reserve _ => False
  | _ => True

theorem isSome_act_of_light {o : Op} {choice : Choice} (light : o.Light) : (act w o choice).isSome := by
  cases o with
  | reserve capacity => exact light.elim
  | read path =>
    simp only [act]
    split <;> rfl
  | write path bytes =>
    simp only [act]
    split <;> rfl
  | pathExists path => rfl
  | createDirAll path => rfl

/-- Two operations are issued for each entry. -/
theorem atMost_readEntries (entries : List ChunkEntry) (output : Bytes) :
    AtMost Op.Light (2 * entries.length) (store.readEntries output entries).run := by
  induction entries generalizing output with
  | nil => exact .ret _
  | cons entry entries ih =>
    have count : 2 * (entry :: entries).length = 1 + (1 + 2 * entries.length) := by
      rw [List.length_cons]
      omega
    have exists' : AtMost Op.Light 1 (pathExists (store.chunkPath entry.sha256)) := .perform trivial
    have reads : AtMost Op.Light 1 (read (store.chunkPath entry.sha256)) := .perform trivial
    rw [count, ChunkStore.readEntries]
    apply AtMost.run_bind exists'.always
    intro there
    cases there with
    | true => exact reads.attempt.run_bind fun data => ih (output ++ data)
    | false => exact .ret _

/-- Putting a file together comes to an end if there is memory for what can be reserved, and no
more is reserved than the chunks of the index take. -/
structure ChunkStore.ReturnsFrom (store : ChunkStore) (index : CaiBxIndex) (w : World) : Prop where
  returns : ∀ (choice : Choice) (choices : List Choice), choice.failure = none →
    2 * index.chunks.length ≤ choices.length →
    ∃ out, exec act (store.reconstruct index).run w (choice :: choices) = some out
  justified : ∀ (choices : List Choice), ∀ e ∈ trace act (store.reconstruct index).run w choices,
    ∀ capacity, e.op = .reserve capacity → capacity ≤ (index.chunks.map (·.size.toNat)).sum

/-- The first operation reserves the total size. -/
theorem run_reconstruct : (store.reconstruct index).run =
    .op (.reserve index.totalSize.toNat) fun _ => (store.readEntries [] index.chunks).run := rfl

theorem returnsFrom_iff : store.ReturnsFrom index w ↔ index.totalSize.toNat < 2 ^ 63 ∧
    index.totalSize.toNat ≤ (index.chunks.map (·.size.toNat)).sum := by
  constructor
  · rintro ⟨returns, justified⟩
    constructor
    · obtain ⟨out, run⟩ := returns {} (List.replicate (2 * index.chunks.length) {}) rfl (by simp)
      rw [run_reconstruct] at run
      by_contra large
      have panics : act w (.reserve index.totalSize.toNat) {} = none := if_neg fun fits => large fits.1
      simp only [exec, panics] at run
      cases run
    · apply justified [] ⟨w, .reserve index.totalSize.toNat, none⟩ _ _ rfl
      rw [run_reconstruct]
      exact List.mem_cons_self
  · rintro ⟨small, justified⟩
    constructor
    · intro choice choices room enough
      have reserved : act w (.reserve index.totalSize.toNat) choice = some ((), w) :=
        if_pos ⟨small, room⟩
      rw [run_reconstruct]
      simp only [exec, reserved]
      exact (atMost_readEntries index.chunks []).exists_exec
        (fun _ _ _ light => isSome_act_of_light light) enough
    · intro choices e mem capacity reserves
      have light : Issues (fun o => ∀ capacity, o = .reserve capacity →
          capacity ≤ (index.chunks.map (·.size.toNat)).sum) (store.reconstruct index).run := by
        rw [run_reconstruct]
        refine ⟨?_, fun _ => ?_⟩
        · rintro capacity ⟨⟩
          exact justified
        · apply (atMost_readEntries index.chunks []).issues
          rintro _ light capacity rfl
          exact light.elim
      exact light.trace e mem capacity reserves

/-- When nothing panics. -/
theorem returns_iff :
    ((∃ r, index.verify sha256 checks data = some r) ∧ store.ReturnsFrom index w) ↔
      (∀ (before : List ChunkEntry) (entry : ChunkEntry) (rest : List ChunkEntry),
        index.chunks = before ++ entry :: rest → (∀ e ∈ before, e.Matches sha256 data) →
          ¬ entry.Overflows checks data) ∧
      index.totalSize.toNat < 2 ^ 63 ∧
      index.totalSize.toNat ≤ (index.chunks.map (·.size.toNat)).sum := by
  have verifies : (∃ r, index.verify sha256 checks data = some r) ↔
      ∀ (before : List ChunkEntry) (entry : ChunkEntry) (rest : List ChunkEntry),
        index.chunks = before ++ entry :: rest → (∀ e ∈ before, e.Matches sha256 data) →
          ¬ entry.Overflows checks data := by
    rw [← Option.ne_none_iff_exists', ne_eq, CaiBxIndex.verify, verifyEntries_eq_none]
    constructor
    · intro never before entry rest split verified panics
      exact never ⟨before, entry, rest, split, verified, panics⟩
    · rintro never ⟨before, entry, rest, split, verified, panics⟩
      exact never before entry rest split verified panics
  rw [verifies, returnsFrom_iff]

/-- An index with a chunk of two bytes at the last offset. -/
def overflowing : CaiBxIndex :=
  { sampleIndex [] with
    totalSize := 2, chunks := [{ offset := .ofNat (2 ^ 64 - 1), size := 2, sha256 := sampleHash [] }] }

/-- An index of no chunks that says it takes all there is. -/
def boundless : CaiBxIndex := { sampleIndex [] with totalSize := .ofNat (2 ^ 64 - 1) }

/-- Both are accepted. Verifying the one panics, with overflow checks and without, and so does
putting the other together, which has nothing to read. -/
theorem accepted_panics :
    (CaiBxIndex.fromBytes (CaiBxIndex.ofReader definiteReader) overflowing.toBytes = .ok overflowing ∧
      ∀ checks, overflowing.verify sampleHash checks [0] = none) ∧
    (CaiBxIndex.fromBytes (CaiBxIndex.ofReader definiteReader) boundless.toBytes = .ok boundless ∧
      exec act (ChunkStore.reconstruct ⟨"/store"⟩ boundless).run .empty [{}] = none) := by
  refine ⟨⟨fromBytes_toBytes rfl (by decide), ?_⟩, fromBytes_toBytes rfl (by decide), rfl⟩
  intro checks
  cases checks <;> rfl

end Casync
