import UosTv.Casync.Delta
import UosTv.Casync.Directories

/-!
Removing the chunks that no index refers to (`cleanup` of `casync-rs/src/store.rs`).

A file is taken for the chunk whose hash its name is the text of, wherever it lies in the
directory of a chunk. The path of a chunk ends in the text of its hash, so no file that is
removed is one of a chunk that is referred to, whatever is listed and wherever the cleanup
stops; and when it returns, every other chunk is gone (`cleanup_keeps`).
-/

namespace Casync

open Effect Rust

/-- The hash that the name of a file is the text of. -/
def hashOf (name : String) : Option ChunkHash :=
  match hexDecode (asBytes name) with
  | .ok bytes => if length : bytes.length = 32 then some ⟨bytes, length⟩ else none
  | .error _ => none

/-- `removed += 1`. -/
def countRemoved (checks : Bool) (removed : UInt32) : ExceptT String D UInt32 :=
  match addU32 checks removed 1 with
  | some removed => pure removed
  | none => .mk (.op .overflow nofun)

/-- The loop of `cleanup` over the files of a directory. -/
def cleanFiles (checks : Bool) (refs : HashSet ChunkHash) (dir : String) (removed : UInt32) :
    List (Except String DirEntry) → ExceptT String D UInt32
  | [] => pure removed
  | .error e :: _ => throw e
  | .ok file :: rest =>
    match hashOf file.name with
    | some hash =>
      if hash ∈ refs then cleanFiles checks refs dir removed rest
      else do
        attempt id (removeFile (join dir file.name))
        let removed ← countRemoved checks removed
        cleanFiles checks refs dir removed rest
    | none => cleanFiles checks refs dir removed rest

namespace ChunkStore

/-- `chunks_dir`. -/
def chunksDir (store : ChunkStore) : String := join store.root "chunks"

/-- The loop of `cleanup` over the directories of the first two digits. -/
def cleanDirs (store : ChunkStore) (checks : Bool) (refs : HashSet ChunkHash) (removed : UInt32) :
    List (Except String DirEntry) → ExceptT String D UInt32
  | [] => pure removed
  | .error e :: _ => throw e
  | .ok entry :: rest => do
    if ← attempt id (fileType entry) then
      let dir := join store.chunksDir entry.name
      let files ← attempt id (readDir dir)
      let removed ← cleanFiles checks refs dir removed files
      store.cleanDirs checks refs removed rest
    else store.cleanDirs checks refs removed rest

/-- `cleanup`. -/
def cleanup (store : ChunkStore) (checks : Bool) (referenced : List ChunkHash) :
    ExceptT String D UInt32 := do
  let refs := HashSet.collect referenced
  if ← always (dirExists store.chunksDir) then
    let entries ← attempt id (readDir store.chunksDir)
    store.cleanDirs checks refs 0 entries
  else pure 0

end ChunkStore

/-! ### Names and paths of chunks -/

variable {store : ChunkStore} {w w' : World} {hash hash' : ChunkHash} {dir name : String}
  {checks : Bool} {refs : HashSet ChunkHash} {items : List (Except String DirEntry)}

@[simp] theorem hashOf_hexEncode : hashOf (hexEncode hash.bytes) = some hash := by
  rw [hashOf, hexDecode_hexEncode]
  exact dif_pos hash.length

/-- A file that is taken for a chunk has the path of that chunk or of none. -/
theorem eq_of_join_eq (named : hashOf name = some hash)
    (same : join dir name = store.chunkPath hash') : hash' = hash := by
  unfold hashOf at named
  cases read : hexDecode (asBytes name) with
  | error e =>
    rw [read] at named
    cases named
  | ok bytes =>
    simp only [read] at named
    split at named
    · rename_i length
      cases named
      have left := asBytes_suffix_join dir name
      rw [same] at left
      have right := asBytes_suffix_join (store.chunkDir hash') (hexEncode hash'.bytes)
      have lengths : (asBytes name).length = (asBytes (hexEncode hash'.bytes)).length := by
        rw [length_of_hexDecode read, length_asBytes_hexEncode, length, hash'.length]
      have texts := (List.suffix_of_suffix_length_le left right lengths.le).eq_of_length lengths
      rw [texts, hexDecode_hexEncode] at read
      cases hash'
      cases read
      rfl
    · cases named

theorem slash_not_mem_hexEncode (bytes : Bytes) : '/' ∉ (hexEncode bytes).toList := by
  have digit : ∀ d < 16, '/' ≠ hexChar d := by decide
  rw [hexEncode, String.toList_ofList, List.mem_flatMap]
  rintro ⟨b, -, mem⟩
  have bound := b.toNat_lt
  simp only [List.mem_cons, List.not_mem_nil, or_false] at mem
  rcases mem with high | low
  · exact digit _ (by omega) high
  · exact digit _ (by omega) low

/-- The name of the directory of a chunk. -/
def firstDigits (hash : ChunkHash) : String := String.ofList ((hexEncode hash.bytes).toList.take 2)

theorem hexEncode_ne_empty : hexEncode hash.bytes ≠ "" := by
  intro empty
  have length := length_hexEncode hash.bytes
  rw [empty, hash.length] at length
  cases length

theorem firstDigits_ne_empty : firstDigits hash ≠ "" := by
  intro empty
  have length := congrArg (fun s : String => s.toList.length) empty
  simp only [firstDigits, String.toList_ofList, List.length_take, length_hexEncode, hash.length] at length
  cases length

theorem slash_not_mem_firstDigits : '/' ∉ (firstDigits hash).toList := by
  rw [firstDigits, String.toList_ofList]
  exact fun mem => slash_not_mem_hexEncode _ (List.mem_of_mem_take mem)

theorem chunkDir_eq : store.chunkDir hash = inside store.chunksDir ++ firstDigits hash :=
  join_eq slash_not_mem_firstDigits

/-- The directory of a chunk is one of the directories that are gone through. -/
theorem entryFor_chunksDir :
    entryFor store.chunksDir (store.chunkPath hash) = some ⟨firstDigits hash, true⟩ := by
  rw [ChunkStore.chunkPath, join_eq (slash_not_mem_hexEncode _), chunkDir_eq,
    inside_append firstDigits_ne_empty slash_not_mem_firstDigits]
  exact entryFor_below firstDigits_ne_empty slash_not_mem_firstDigits

/-- The chunk is a file of its directory. -/
theorem entryFor_chunkDir :
    entryFor (store.chunkDir hash) (store.chunkPath hash) = some ⟨hexEncode hash.bytes, false⟩ := by
  rw [ChunkStore.chunkPath, join_eq (slash_not_mem_hexEncode _)]
  exact entryFor_file hexEncode_ne_empty (slash_not_mem_hexEncode _)

theorem stored_remove {path : String} : store.stored (w.remove path) hash =
    if store.chunkPath hash = path then none else store.stored w hash := get_remove _

/-! ### Chunks that are referred to -/

/-- The operation removes no chunk that is referred to. -/
def DirOp.Spares (store : ChunkStore) (refs : HashSet ChunkHash) : DirOp → Prop
  | .removeFile path => ∀ hash ∈ refs, path ≠ store.chunkPath hash
  | _ => True

/-- The chunks that are referred to are stored as they were. -/
def Kept (store : ChunkStore) (refs : HashSet ChunkHash) (w w' : World) : Prop :=
  ∀ hash ∈ refs, store.stored w' hash = store.stored w hash

theorem spares_countRemoved {removed : UInt32} :
    Issues (DirOp.Spares store refs) (countRemoved checks removed).run := by
  unfold countRemoved
  split
  · trivial
  · exact ⟨trivial, fun answer => answer.elim⟩

theorem spares_cleanFiles {removed : UInt32} :
    Issues (DirOp.Spares store refs) (cleanFiles checks refs dir removed items).run := by
  induction items generalizing removed with
  | nil => trivial
  | cons item items ih =>
    cases item with
    | error e => trivial
    | ok file =>
      rw [cleanFiles]
      split
      · rename_i hash named
        split
        · exact ih
        · rename_i other
          have spares : Issues (DirOp.Spares store refs) (removeFile (join dir file.name)) := by
            refine ⟨?_, fun _ => trivial⟩
            rintro hash' referred same
            rw [eq_of_join_eq named same] at referred
            exact other referred
          exact spares.attempt.run_bind fun _ => spares_countRemoved.run_bind fun _ => ih
      · exact ih

theorem spares_cleanDirs {removed : UInt32} :
    Issues (DirOp.Spares store refs) (store.cleanDirs checks refs removed items).run := by
  induction items generalizing removed with
  | nil => trivial
  | cons item items ih =>
    cases item with
    | error e => trivial
    | ok entry =>
      have types : Issues (DirOp.Spares store refs) (fileType entry) := ⟨trivial, fun _ => trivial⟩
      rw [ChunkStore.cleanDirs]
      refine types.attempt.run_bind fun isDir => ?_
      cases isDir with
      | false => exact ih
      | true =>
        have reads : Issues (DirOp.Spares store refs) (readDir (join store.chunksDir entry.name)) :=
          ⟨trivial, fun _ => trivial⟩
        exact reads.attempt.run_bind fun files => spares_cleanFiles.run_bind fun _ => ih

theorem spares_cleanup {referenced : List ChunkHash} :
    Issues (DirOp.Spares store (HashSet.collect referenced)) (store.cleanup checks referenced).run := by
  have asks : Issues (DirOp.Spares store (HashSet.collect referenced)) (dirExists store.chunksDir) :=
    ⟨trivial, fun _ => trivial⟩
  have reads : Issues (DirOp.Spares store (HashSet.collect referenced)) (readDir store.chunksDir) :=
    ⟨trivial, fun _ => trivial⟩
  rw [ChunkStore.cleanup]
  refine asks.always.run_bind fun there => ?_
  cases there with
  | false => trivial
  | true => exact reads.attempt.run_bind fun _ => spares_cleanDirs

theorem kept_of_dirAct {w₀ : World} {o : DirOp} {choice : DirChoice} {answer : DirAns o}
    (spares : o.Spares store refs) (step : dirAct w o choice = some (answer, w'))
    (kept : Kept store refs w₀ w) : Kept store refs w₀ w' := by
  cases o with
  | pathExists path =>
    cases step
    exact kept
  | readDir path =>
    simp only [dirAct] at step
    split at step
    · cases step
      exact kept
    · split at step
      · cases step
        exact kept
      · split at step <;> cases step <;> exact kept
  | fileType entry =>
    cases step
    exact kept
  | removeFile path =>
    simp only [dirAct] at step
    split at step
    · cases step
      exact kept
    · split at step
      · cases step
        intro hash referred
        rw [stored_remove, if_neg fun same => spares hash referred same.symm]
        exact kept hash referred
      · cases step
        exact kept
  | overflow => cases step

/-! ### Chunks that are not referred to -/

theorem wp_countRemoved {Q : UInt32 → World → Prop} {E : String → World → Prop} {removed : UInt32}
    (post : ∀ n, Q n w) : wpExcept dirAct free (countRemoved checks removed) Q E w := by
  unfold countRemoved
  split
  · exact post _
  · exact ⟨trivial, fun _ answer => answer.elim⟩

theorem stored_remove_eq_none {path : String} (gone : store.stored w hash = none) :
    store.stored (w.remove path) hash = none := by
  rw [stored_remove]
  split
  · rfl
  · exact gone

section Pending

variable {file : DirEntry}

/-- A file that is not the chunk leaves it to the rest of the loop. -/
theorem pending_of_ne (pending : store.stored w hash = none ∨
      dir = store.chunkDir hash ∧ Reaches (.ok file :: items) ⟨hexEncode hash.bytes, false⟩)
    (differs : ⟨hexEncode hash.bytes, false⟩ ≠ file) : store.stored w hash = none ∨
      dir = store.chunkDir hash ∧ Reaches items ⟨hexEncode hash.bytes, false⟩ := by
  rw [reaches_cons] at pending
  rcases pending with gone | ⟨same, here | rest⟩
  · exact .inl gone
  · exact absurd here differs
  · exact .inr ⟨same, rest⟩

/-- When a file is removed, the chunk is gone or is left to the rest of the loop. -/
theorem pending_remove (pending : store.stored w hash = none ∨
      dir = store.chunkDir hash ∧ Reaches (.ok file :: items) ⟨hexEncode hash.bytes, false⟩) :
    store.stored (w.remove (join dir file.name)) hash = none ∨
      dir = store.chunkDir hash ∧ Reaches items ⟨hexEncode hash.bytes, false⟩ := by
  by_cases here : ⟨hexEncode hash.bytes, false⟩ = file
  · left
    rcases pending with gone | ⟨same, -⟩
    · exact stored_remove_eq_none gone
    · rw [← here, same, stored_remove]
      exact if_pos rfl
  · exact (pending_of_ne pending here).imp_left stored_remove_eq_none

end Pending

/-- A chunk that the loop over its directory gets to is gone after it. -/
theorem wp_cleanFiles {removed : UInt32} (other : hash ∉ refs)
    (pending : store.stored w hash = none ∨
      dir = store.chunkDir hash ∧ Reaches items ⟨hexEncode hash.bytes, false⟩) :
    wpExcept dirAct free (cleanFiles checks refs dir removed items)
      (fun _ w' => store.stored w' hash = none) (fun _ _ => True) w := by
  induction items generalizing w removed with
  | nil =>
    rcases pending with gone | ⟨-, reached | ⟨e, stops⟩⟩
    · exact gone
    · cases reached
    · cases stops
  | cons item items ih =>
    cases item with
    | error e => trivial
    | ok file =>
      rw [cleanFiles]
      split
      · rename_i hash' named
        split
        · rename_i referred
          apply ih (pending_of_ne pending _)
          rintro rfl
          rw [hashOf_hexEncode] at named
          cases named
          exact other referred
        · rw [wpExcept_bind, wpExcept_attempt]
          apply wp_removeFile
          · change wpExcept _ _ _ _ _ _
            rw [wpExcept_bind]
            exact wp_countRemoved fun n => ih (pending_remove pending)
          · exact fun _ => trivial
      · rename_i unnamed
        apply ih (pending_of_ne pending _)
        rintro rfl
        rw [hashOf_hexEncode] at unnamed
        cases unnamed

theorem mem_entries_chunksDir (there : store.stored w hash ≠ none) :
    ⟨firstDigits hash, true⟩ ∈ w.entries store.chunksDir :=
  mem_entries.mpr ⟨_, Option.isSome_iff_ne_none.mpr there, entryFor_chunksDir⟩

theorem mem_entries_chunkDir (there : store.stored w hash ≠ none) :
    ⟨hexEncode hash.bytes, false⟩ ∈ w.entries (store.chunkDir hash) :=
  mem_entries.mpr ⟨_, Option.isSome_iff_ne_none.mpr there, entryFor_chunkDir⟩

/-- A chunk whose directory the loop gets to is gone after it. -/
theorem wp_cleanDirs {removed : UInt32} (other : hash ∉ refs)
    (pending : store.stored w hash = none ∨ Reaches items ⟨firstDigits hash, true⟩) :
    wpExcept dirAct free (store.cleanDirs checks refs removed items)
      (fun _ w' => store.stored w' hash = none) (fun _ _ => True) w := by
  induction items generalizing w removed with
  | nil =>
    rcases pending with gone | reached | ⟨e, stops⟩
    · exact gone
    · cases reached
    · cases stops
  | cons item items ih =>
    cases item with
    | error e => trivial
    | ok entry =>
      rw [ChunkStore.cleanDirs, wpExcept_bind, wpExcept_attempt]
      apply wp_fileType
      · change wpExcept _ _ (if entry.isDir then _ else _) _ _ _
        rw [reaches_cons] at pending
        split
        · rw [wpExcept_bind, wpExcept_attempt]
          apply wp_readDir
          · intro files complete
            change wpExcept _ _ _ _ _ _
            rw [wpExcept_bind]
            by_cases later : Reaches items ⟨firstDigits hash, true⟩
            · exact wpExcept_free (fun _ _ => ih (.inr later)) fun _ _ => trivial
            · -- The chunk is gone, or this is its directory.
              refine wpExcept_mono (wp_cleanFiles other ?_) (fun _ _ gone => ih (.inl gone)) fun _ _ => id
              by_cases gone : store.stored w hash = none
              · exact .inl gone
              · obtain rfl := (pending.resolve_left gone).resolve_right later
                exact .inr ⟨rfl, complete _ (mem_entries_chunkDir gone)⟩
          · exact fun _ => trivial
        · rename_i file
          refine ih (pending.imp_right fun reached => reached.resolve_left ?_)
          rintro rfl
          exact file rfl
      · exact fun _ => trivial

theorem wp_cleanup {referenced : List ChunkHash} (other : hash ∉ referenced) :
    wpExcept dirAct free (store.cleanup checks referenced)
      (fun _ w' => store.stored w' hash = none) (fun _ _ => True) w := by
  rw [ChunkStore.cleanup, wpExcept_bind, wpExcept_always]
  apply wp_dirExists
  · change wpExcept _ _ (if true then _ else _) _ _ _
    rw [if_pos rfl, wpExcept_bind, wpExcept_attempt]
    apply wp_readDir
    · intro entries complete
      apply wp_cleanDirs (mt HashSet.mem_collect.mp other)
      by_cases gone : store.stored w hash = none
      · exact .inl gone
      · exact .inr (complete _ (mem_entries_chunksDir gone))
    · exact fun _ => trivial
  · intro empty
    by_contra there
    exact empty _ (mem_entries_chunksDir there)

/-! ### Indexes of chunks that are referred to -/

/-- The operation asks for nothing but chunks that are referred to. -/
def Op.Reads (store : ChunkStore) (refs : HashSet ChunkHash) : Op → Prop
  | .pathExists path | .read path => ∃ hash ∈ refs, path = store.chunkPath hash
  | .reserve _ => True
  | _ => False

theorem reads_readEntries {entries : List ChunkEntry} {output : Bytes}
    (all : ∀ entry ∈ entries, entry.sha256 ∈ refs) :
    Issues (Op.Reads store refs) (store.readEntries output entries).run := by
  induction entries generalizing output with
  | nil => trivial
  | cons entry entries ih =>
    obtain ⟨here, others⟩ := List.forall_mem_cons.mp all
    have exists' : Issues (Op.Reads store refs) (pathExists (store.chunkPath entry.sha256)) :=
      ⟨⟨_, here, rfl⟩, fun _ => trivial⟩
    have reads : Issues (Op.Reads store refs) (read (store.chunkPath entry.sha256)) :=
      ⟨⟨_, here, rfl⟩, fun _ => trivial⟩
    rw [ChunkStore.readEntries]
    refine exists'.always.run_bind fun there => ?_
    cases there with
    | false => trivial
    | true => exact reads.attempt.run_bind fun _ => ih others

/-- What is put together from chunks that are referred to is the same. -/
theorem reconstruct_of_kept (kept : Kept store refs w w') {index : CaiBxIndex}
    (all : ∀ entry ∈ index.chunks, entry.sha256 ∈ refs) (choices : List Choice) :
    (exec act (store.reconstruct index).run w' choices).map (·.1) =
      (exec act (store.reconstruct index).run w choices).map (·.1) := by
  have reserves : Issues (Op.Reads store refs) (reserve index.totalSize.toNat) :=
    ⟨trivial, fun _ => trivial⟩
  have issues : Issues (Op.Reads store refs) (store.reconstruct index).run :=
    reserves.always.run_bind fun _ => reads_readEntries all
  refine issues.exec_related (R := fun s t => Kept store refs t s) ?_ kept choices
  intro s t o choice reads kept
  cases o with
  | pathExists path =>
    obtain ⟨hash, referred, rfl⟩ := reads
    refine .some ⟨?_, kept⟩
    exact congrArg Option.isSome (kept hash referred)
  | read path =>
    obtain ⟨hash, referred, rfl⟩ := reads
    have same : s.files.get (store.chunkPath hash) = t.files.get (store.chunkPath hash) :=
      kept hash referred
    simp only [act, same]
    split
    · exact .some ⟨rfl, kept⟩
    · exact .some ⟨rfl, kept⟩
    · exact .some ⟨rfl, kept⟩
  | reserve capacity =>
    simp only [act]
    split
    · exact .some ⟨rfl, kept⟩
    · exact .none
  | createDirAll path => cases reads
  | write path bytes => cases reads

/-- Wherever a cleanup stops, the chunks that are referred to are stored as before, and what is
put together from them is the same. When it returns, no other chunk is stored. -/
theorem cleanup_keeps (store : ChunkStore) (checks : Bool) (referenced : List ChunkHash) (w : World)
    (choices : List DirChoice) :
    (∀ w' ∈ states dirAct (store.cleanup checks referenced).run w choices,
      (∀ hash ∈ referenced, store.stored w' hash = store.stored w hash) ∧
      ∀ index : CaiBxIndex, (∀ entry ∈ index.chunks, entry.sha256 ∈ referenced) → ∀ reads,
        (exec act (store.reconstruct index).run w' reads).map (·.1) =
          (exec act (store.reconstruct index).run w reads).map (·.1)) ∧
    ∀ removed w' rest,
      exec dirAct (store.cleanup checks referenced).run w choices = some (.ok removed, w', rest) →
        ∀ hash, store.stored w' hash = if hash ∈ referenced then store.stored w hash else none := by
  have start : Kept store (.collect referenced) w w := fun _ _ => rfl
  let spared : Contract DirOp DirAns World :=
    ⟨fun _ _ _ => True, fun w' _ => Kept store (.collect referenced) w w'⟩
  have keeps : wp dirAct spared (store.cleanup checks referenced).run
      (fun _ => Kept store (.collect referenced) w) w :=
    spares_cleanup.wp (fun _ _ _ => id)
      (fun _ _ _ _ _ spares _ step => kept_of_dirAct spares step) start
  constructor
  · intro w' mem
    have kept := wp_states (fun _ _ => id) keeps (fun _ _ _ _ => trivial) w' mem
    refine ⟨fun hash referred => kept hash (HashSet.mem_collect.mpr referred), ?_⟩
    intro index all reads
    exact reconstruct_of_kept kept (fun entry mem => HashSet.mem_collect.mpr (all entry mem)) reads
  · intro removed w' rest run hash
    split
    · rename_i referred
      exact wp_exec keeps run (fun _ _ _ _ => trivial) hash (HashSet.mem_collect.mpr referred)
    · rename_i other
      have gone : wp dirAct free (store.cleanup checks referenced).run _ w :=
        @wp_cleanup store w hash checks referenced other
      have ends := wp_exec gone run fun _ _ _ _ => trivial
      exact ends

end Casync
