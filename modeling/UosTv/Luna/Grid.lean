import UosTv.Lib.Ragged
import UosTv.Luna.Navigation

/-!
What holds of the grid of the navigation manager in every state: its rows hold the indices of
its entries, row after row, and every entry knows its place (`RowMajor`). An index that can have
the focus has it (`Valid`).
-/

namespace Luna

namespace NavigationManager

open Ragged

variable {E : Type} {nav : NavigationManager E} {doc : Document E} {cell : Cell E}
  {items rowEls : List (Item E)} {row : List ℕ} {r c i : ℕ}

structure RowMajor (nav : NavigationManager E) : Prop where
  numbered : Numbered nav.grid.length nav.rows
  filled : ∀ row ∈ nav.rows, row ≠ []
  place : ∀ {r c i : ℕ} {row : List ℕ}, nav.rows[r]? = some row → row[c]? = some i →
    ∃ cell, nav.grid[i]? = some cell ∧ cell.row = r ∧ cell.col = c

/-- The grid is in order, and the focus is on one of its entries, if there are any. -/
structure Valid (nav : NavigationManager E) : Prop extends RowMajor nav where
  nonneg : 0 ≤ nav.focusIndex
  inside : nav.grid ≠ [] → nav.focusIndex < nav.grid.length

theorem valid_new : (new : NavigationManager E).Valid where
  numbered := rfl
  filled := by simp [new]
  place := by simp [new]
  nonneg := by simp [new]
  inside := by simp [new]

/-! ### The rows -/

theorem flatten_addItem (rawRows : List (List (Item E))) (item : Item E) :
    (addItem rawRows item).flatten = rawRows.flatten ++ [item] := by
  rw [addItem]
  split
  · rename_i none'
    rw [List.getLast?_eq_none_iff.mp none']
    rfl
  · rename_i lastRow last
    obtain ⟨before, rfl⟩ := List.getLast?_eq_some_iff.mp last
    split
    · simp
    · simp

theorem addItem_filled {rawRows : List (List (Item E))} (filled : ∀ row ∈ rawRows, row ≠ [])
    (item : Item E) : ∀ row ∈ addItem rawRows item, row ≠ [] := by
  rw [addItem]
  split
  · simp
  · rename_i lastRow last
    obtain ⟨before, rfl⟩ := List.getLast?_eq_some_iff.mp last
    rw [List.forall_mem_append, List.forall_mem_singleton] at filled
    split
    · rw [List.dropLast_concat, List.forall_mem_append, List.forall_mem_singleton]
      exact ⟨filled.1, by simp⟩
    · rw [List.forall_mem_append, List.forall_mem_append, List.forall_mem_singleton,
        List.forall_mem_singleton]
      exact ⟨filled, List.cons_ne_nil _ _⟩

theorem foldl_addItem (rawRows : List (List (Item E))) (filled : ∀ row ∈ rawRows, row ≠ [])
    (sorted : List (Item E)) :
    (sorted.foldl addItem rawRows).flatten = rawRows.flatten ++ sorted ∧
      ∀ row ∈ sorted.foldl addItem rawRows, row ≠ [] := by
  induction sorted generalizing rawRows with
  | nil => exact ⟨(List.append_nil _).symm, filled⟩
  | cons item sorted ih =>
    obtain ⟨flat, some'⟩ := ih (addItem rawRows item) (addItem_filled filled item)
    refine ⟨?_, some'⟩
    rw [List.foldl_cons, flat, flatten_addItem, List.append_assoc]
    rfl

theorem rawRows_filled (items : List (Item E)) : ∀ row ∈ rawRows items, row ≠ [] := by
  simp only [rawRows, List.forall_mem_map]
  intro row isRow none'
  have perm := List.perm_insertionSort LeftOf row
  rw [none'] at perm
  exact (foldl_addItem [] (by simp) _).2 row isRow (List.nil_perm.mp perm)

/-- The rows have all the elements. -/
theorem flatten_rawRows_perm (items : List (Item E)) : (rawRows items).flatten.Perm items := by
  have grouped : ∀ rows : List (List (Item E)),
      (rows.map (List.insertionSort LeftOf)).flatten.Perm rows.flatten := by
    intro rows
    induction rows with
    | nil => exact List.Perm.refl _
    | cons row rows ih => exact (List.perm_insertionSort LeftOf row).append ih
  have all := (foldl_addItem [] (by simp) (items.insertionSort Above)).1
  exact ((grouped _).trans (List.Perm.of_eq all)).trans (List.perm_insertionSort Above items)

/-! ### The grid of some rows -/

theorem mapIdx_numbers (rowEls : List (Item E)) (n : ℕ) :
    (rowEls.mapIdx fun c _ => n + c) = (List.range rowEls.length).map (n + ·) := by
  apply List.ext_getElem
  · simp
  · simp

/-- One more row keeps the order. -/
theorem RowMajor.addRow (rowMajor : nav.RowMajor) (some' : rowEls ≠ []) :
    (nav.addRow rowEls).RowMajor where
  numbered := by
    have numbered := rowMajor.numbered
    rw [Numbered] at numbered ⊢
    simp only [NavigationManager.addRow, List.flatten_append, numbered, mapIdx_numbers,
      List.flatten_singleton, List.length_append, List.length_mapIdx, List.range_add]
  filled := by
    simp only [NavigationManager.addRow, List.forall_mem_append, List.forall_mem_singleton]
    exact ⟨rowMajor.filled, by simpa using some'⟩
  place := by
    intro r c i row isRow isPlace
    simp only [NavigationManager.addRow] at isRow ⊢
    rcases Nat.lt_or_ge r nav.rows.length with old | new
    · rw [List.getElem?_append_left old] at isRow
      obtain ⟨cell, isCell, place⟩ := rowMajor.place isRow isPlace
      have less := (List.getElem?_eq_some_iff.mp isCell).1
      exact ⟨cell, by rw [List.getElem?_append_left less, isCell], place⟩
    · -- The last row is the new one.
      have last : r = nav.rows.length := by
        have := (List.getElem?_eq_some_iff.mp isRow).1
        simp only [List.length_append, List.length_singleton] at this
        omega
      subst last
      rw [List.getElem?_concat_length, Option.some_inj] at isRow
      subst isRow
      obtain ⟨less, rfl⟩ := List.getElem?_eq_some_iff.mp isPlace
      rw [List.length_mapIdx] at less
      refine ⟨⟨rowEls[c].el, nav.rows.length, c⟩, ?_, rfl, rfl⟩
      simp [less]

theorem foldl_addRow_rowMajor {rows : List (List (Item E))} (rowMajor : nav.RowMajor)
    (filled : ∀ row ∈ rows, row ≠ []) : (rows.foldl addRow nav).RowMajor := by
  induction rows generalizing nav with
  | nil => exact rowMajor
  | cons row rows ih =>
    rw [List.forall_mem_cons] at filled
    exact ih (rowMajor.addRow filled.1) filled.2

theorem foldl_addRow_els (rows : List (List (Item E))) (nav : NavigationManager E) :
    (rows.foldl addRow nav).grid.map Cell.el =
        nav.grid.map Cell.el ++ rows.flatten.map Item.el ∧
      (rows.foldl addRow nav).focusIndex = nav.focusIndex := by
  induction rows generalizing nav with
  | nil => simp
  | cons row rows ih =>
    obtain ⟨els, focus⟩ := ih (nav.addRow row)
    refine ⟨?_, focus⟩
    have added : (nav.addRow row).grid.map Cell.el =
        nav.grid.map Cell.el ++ row.map Item.el := by
      rw [NavigationManager.addRow, List.map_append]
      congr 1
      exact List.ext_getElem (by simp) (by simp)
    rw [List.foldl_cons, els, added, List.append_assoc, List.flatten_cons, List.map_append]

theorem layOut_rowMajor (nav : NavigationManager E) (items : List (Item E)) :
    (nav.layOut items).RowMajor :=
  foldl_addRow_rowMajor
    { numbered := rfl, filled := by simp, place := by simp } (rawRows_filled items)

@[simp] theorem layOut_focusIndex (nav : NavigationManager E) (items : List (Item E)) :
    (nav.layOut items).focusIndex = nav.focusIndex :=
  (foldl_addRow_els _ _).2

/-- The grid has all the elements. -/
theorem layOut_perm (nav : NavigationManager E) (items : List (Item E)) :
    ((nav.layOut items).grid.map Cell.el).Perm (items.map Item.el) := by
  have els := (foldl_addRow_els (rawRows items) { nav with grid := [], rows := [] }).1
  rw [List.map_nil, List.nil_append] at els
  exact (List.Perm.of_eq els).trans ((flatten_rawRows_perm items).map Item.el)

/-! ### Refreshing -/

theorem refresh_of_nil (none' : doc.focusable = []) : nav.refresh doc = nav := by
  rw [refresh, none']

theorem refresh_of_ne_nil (some' : doc.focusable ≠ []) :
    nav.refresh doc = (nav.layOut (doc.focusable.map fun el => ⟨el, doc.rect el⟩)).clamp := by
  rw [refresh]
  split
  · contradiction
  · rfl

@[simp] theorem clamp_grid (nav : NavigationManager E) : nav.clamp.grid = nav.grid := by
  rw [clamp]
  split <;> rfl

@[simp] theorem clamp_rows (nav : NavigationManager E) : nav.clamp.rows = nav.rows := by
  rw [clamp]
  split <;> rfl

theorem RowMajor.valid_clamp (rowMajor : nav.RowMajor) (nonneg : 0 ≤ nav.focusIndex) :
    nav.clamp.Valid := by
  rw [clamp]
  split
  · exact { rowMajor with
      nonneg := le_refl 0
      inside := fun filled => Int.natCast_pos.mpr (List.length_pos_iff.mpr filled) }
  · rename_i inside
    exact { rowMajor with nonneg, inside := fun _ => not_le.mp inside }

/-- The grid of a refresh has the visible focusable elements, if there are any. -/
theorem refresh_perm (nav : NavigationManager E) (some' : doc.focusable ≠ []) :
    ((nav.refresh doc).grid.map Cell.el).Perm doc.focusable := by
  rw [refresh_of_ne_nil some', clamp_grid]
  simpa [Function.comp_def] using layOut_perm nav (doc.focusable.map fun el => ⟨el, doc.rect el⟩)

theorem Valid.refresh (valid : nav.Valid) (doc : Document E) : (nav.refresh doc).Valid := by
  by_cases some' : doc.focusable = []
  · rw [refresh_of_nil some']
    exact valid
  · rw [refresh_of_ne_nil some']
    exact (layOut_rowMajor _ _).valid_clamp (by simpa using valid.nonneg)

theorem Valid.setFocus (valid : nav.Valid) (index : ℤ) : (nav.setFocus index).Valid := by
  rw [NavigationManager.setFocus]
  split
  · rename_i inside
    exact { valid with nonneg := inside.1, inside := fun _ => inside.2 }
  · exact valid

/-! ### The current entry -/

theorem cur_eq_some : nav.cur = some cell ↔
    ∃ i : ℕ, nav.focusIndex = i ∧ nav.grid[i]? = some cell := by
  rw [cur, item?]
  split
  · simp only [reduceCtorEq, false_iff, not_exists, not_and]
    intro i
    omega
  · constructor
    · intro isCell
      exact ⟨nav.focusIndex.toNat, by omega, isCell⟩
    · rintro ⟨i, focus, isCell⟩
      rw [focus, Int.toNat_natCast, isCell]

/-- The place of the current entry in `rows`. -/
theorem RowMajor.place_of_cur (rowMajor : nav.RowMajor) (isCell : nav.grid[i]? = some cell) :
    ∃ row, nav.rows[cell.row]? = some row ∧ row[cell.col]? = some i := by
  obtain ⟨r, row, c, isRow, place⟩ :=
    rowMajor.numbered.exists_place (List.getElem?_eq_some_iff.mp isCell).1
  obtain ⟨_, sameCell, rfl, rfl⟩ := rowMajor.place isRow place
  rw [isCell, Option.some_inj] at sameCell
  subst sameCell
  exact ⟨row, isRow, place⟩

theorem Valid.cur (valid : nav.Valid) (filled : nav.grid ≠ []) : ∃ cell, nav.cur = some cell := by
  have := valid.nonneg
  have less : nav.focusIndex.toNat < nav.grid.length := by
    have := valid.inside filled
    omega
  exact ⟨nav.grid[nav.focusIndex.toNat],
    cur_eq_some.mpr ⟨_, by omega, List.getElem?_eq_getElem less⟩⟩

end NavigationManager

end Luna
