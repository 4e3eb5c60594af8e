import Mathlib.Data.List.Rotate
import UosTv.Luna.Grid

/-!
The moves of the focus. An arrow to the right or the left goes once around the grid
(`arrowRight_eq`, `arrowLeft_eq`), an arrow up or down to the nearest column of the row
(`closestInRow_spec`).
-/

namespace Luna

namespace NavigationManager

open Ragged

variable {E : Type} {nav : NavigationManager E} {doc : Document E} {cell : Cell E}
  {row : List ℕ} {r c i : ℕ}

/-! ### The nearest column -/

theorem RowMajor.dist (rowMajor : nav.RowMajor) (isRow : nav.rows[r]? = some row)
    (place : row[c]? = some i) (targetCol : ℕ) :
    nav.dist targetCol i = ((c : ℤ) - targetCol).natAbs := by
  obtain ⟨cell, isCell, -, rfl⟩ := rowMajor.place isRow place
  rw [NavigationManager.dist, isCell, Option.elim_some]

theorem RowMajor.closestInRow_spec (rowMajor : nav.RowMajor) (isRow : nav.rows[r]? = some row)
    (targetCol : ℕ) :
    ∃ c i : ℕ, row[c]? = some i ∧ nav.closestInRow r targetCol = i ∧
      ∀ c' < row.length, ((c : ℤ) - targetCol).natAbs ≤ ((c' : ℤ) - targetCol).natAbs := by
  have filled := rowMajor.filled row (List.mem_of_getElem? isRow)
  obtain ⟨i, best⟩ : ∃ i, row.argmin (nav.dist targetCol) = some i :=
    Option.ne_none_iff_exists'.mp (mt List.argmin_eq_none.mp filled)
  obtain ⟨c, place⟩ := List.mem_iff_getElem?.mp (List.argmin_mem best)
  refine ⟨c, i, place, ?_, ?_⟩
  · rw [closestInRow, isRow, Option.bind_some, best]
  · intro c' less
    have place' := List.getElem?_eq_getElem less
    rw [← rowMajor.dist isRow place, ← rowMajor.dist isRow place']
    exact List.le_of_mem_argmin (List.mem_of_getElem? place') best

/-- Column 0 is the nearest to column 0. -/
theorem RowMajor.closestInRow_zero (rowMajor : nav.RowMajor) (isRow : nav.rows[r]? = some row)
    (first : row[0]? = some i) : nav.closestInRow r 0 = i := by
  obtain ⟨c, j, place, closest, least⟩ := rowMajor.closestInRow_spec isRow 0
  have := least 0 (List.getElem?_eq_some_iff.mp first).1
  obtain rfl : c = 0 := by omega
  rw [first, Option.some_inj] at place
  rw [closest, place]

/-- The last column is the nearest to column 999, if there are no more than 1000. -/
theorem RowMajor.closestInRow_last (rowMajor : nav.RowMajor) (isRow : nav.rows[r]? = some row)
    (fit : row.length ≤ 1000) (last : row[row.length - 1]? = some i) :
    nav.closestInRow r 999 = i := by
  obtain ⟨c, j, place, closest, least⟩ := rowMajor.closestInRow_spec isRow 999
  have less := (List.getElem?_eq_some_iff.mp last).1
  have := least _ less
  have inside := (List.getElem?_eq_some_iff.mp place).1
  obtain rfl : c = row.length - 1 := by omega
  rw [last, Option.some_inj] at place
  rw [closest, place]

/-! ### Around the grid -/

theorem RowMajor.indexOf_eq (rowMajor : nav.RowMajor) (isRow : nav.rows[r]? = some row)
    (place : row[c]? = some i) : indexOf row i = c := by
  have found : row.findIdx? (fun entry : ℕ => (entry : ℤ) = i) = some c := by
    obtain ⟨less, here⟩ := List.getElem?_eq_some_iff.mp place
    refine List.findIdx?_eq_some_iff_getElem.mpr ⟨less, by simp [here], ?_⟩
    intro c' before same
    have place' : row[c']? = some i := by
      rw [List.getElem?_eq_getElem (before.trans less), Option.some_inj]
      simpa using same
    have := rowMajor.numbered.col_unique isRow place place'
    omega
  rw [indexOf, found]

theorem item?_natCast {β : Type} (list : List β) (n : ℕ) : item? list n = list[n]? := by
  simp [item?]

theorem RowMajor.row_isSome (rowMajor : nav.RowMajor) (isRow : nav.rows[r]? = some row)
    (r' : ℕ) : ∃ row', nav.rows[r' % nav.rows.length]? = some row' ∧ row' ≠ [] := by
  have some' := Nat.zero_lt_of_lt (List.getElem?_eq_some_iff.mp isRow).1
  have isRow' := List.getElem?_eq_getElem (Nat.mod_lt r' some')
  exact ⟨_, isRow', rowMajor.filled _ (List.mem_of_getElem? isRow')⟩

/-- The right arrow goes to the next index, and from the last to the first. -/
theorem RowMajor.arrowRight_eq (rowMajor : nav.RowMajor) (isCur : nav.cur = some cell) :
    nav.arrowRight cell = nav.setFocusIndex ((nav.focusIndex + 1) % nav.grid.length) := by
  obtain ⟨i, focus, isCell⟩ := cur_eq_some.mp isCur
  obtain ⟨row, isRow, place⟩ := rowMajor.place_of_cur isCell
  have inside := (List.getElem?_eq_some_iff.mp place).1
  rw [arrowRight, isRow]
  simp only [focus, rowMajor.indexOf_eq isRow place]
  split
  · have next := rowMajor.numbered.next_in_row isRow place (by omega)
    rw [show (cell.col : ℤ) + 1 = (cell.col + 1 : ℕ) by rfl, item?_natCast, next]
    simp
  · obtain ⟨row', isNext, filled⟩ := rowMajor.row_isSome isRow (cell.row + 1)
    have next := rowMajor.numbered.next_row isRow place (by omega) isNext filled
    rw [nextRow, rowMajor.closestInRow_zero isNext next]
    simp

/-- The left arrow goes to the index before, and from the first to the last. -/
theorem RowMajor.arrowLeft_eq (rowMajor : nav.RowMajor) (isCur : nav.cur = some cell)
    (fit : ∀ row ∈ nav.rows, row.length ≤ 1000) :
    nav.arrowLeft cell =
      nav.setFocusIndex ((nav.focusIndex + nav.grid.length - 1) % nav.grid.length) := by
  obtain ⟨i, focus, isCell⟩ := cur_eq_some.mp isCur
  obtain ⟨row, isRow, place⟩ := rowMajor.place_of_cur isCell
  have less := (List.getElem?_eq_some_iff.mp isCell).1
  have back : ((i + nav.grid.length - 1 : ℕ) : ℤ) = (i : ℤ) + nav.grid.length - 1 := by omega
  rw [arrowLeft, isRow]
  simp only [focus, rowMajor.indexOf_eq isRow place, ← back]
  split
  · obtain ⟨c, isCol⟩ : ∃ c, cell.col = c + 1 := ⟨cell.col - 1, by omega⟩
    rw [isCol] at place ⊢
    have prev := rowMajor.numbered.prev_in_row isRow place
    rw [show ((c + 1 : ℕ) : ℤ) - 1 = c by omega, item?_natCast, prev]
    simp
  · rw [show cell.col = 0 by omega] at place
    obtain ⟨row', isPrev, filled⟩ :=
      rowMajor.row_isSome isRow (cell.row + nav.rows.length - 1)
    have prev := rowMajor.numbered.prev_row isRow place isPrev filled
    have fit' := fit row' (List.mem_of_getElem? isPrev)
    rw [prevRow, rowMajor.closestInRow_last isPrev fit' prev]
    simp

/-! ### What a key changes -/

def HasIndex (nav : NavigationManager E) (index : ℤ) : Prop :=
  0 ≤ index ∧ index < nav.grid.length

/-- The focus has moved to an entry, and nothing else has changed. -/
def Moved (nav nav' : NavigationManager E) : Prop :=
  ∃ index, nav.HasIndex index ∧ nav' = nav.setFocusIndex index

variable {nav' : NavigationManager E}

theorem Valid.hasIndex (valid : nav.Valid) (filled : nav.grid ≠ []) :
    nav.HasIndex nav.focusIndex :=
  ⟨valid.nonneg, valid.inside filled⟩

theorem grid_ne_nil_of_cur (isCur : nav.cur = some cell) : nav.grid ≠ [] := by
  obtain ⟨i, -, isCell⟩ := cur_eq_some.mp isCur
  exact List.ne_nil_of_mem (List.mem_of_getElem? isCell)

theorem Moved.valid (moved : nav.Moved nav') (valid : nav.Valid) : nav'.Valid := by
  obtain ⟨index, has, rfl⟩ := moved
  exact { valid with nonneg := has.1, inside := fun _ => has.2 }

theorem Valid.moved_self (valid : nav.Valid) (isCur : nav.cur = some cell) : nav.Moved nav :=
  ⟨nav.focusIndex, valid.hasIndex (grid_ne_nil_of_cur isCur), rfl⟩

theorem RowMajor.hasIndex (rowMajor : nav.RowMajor) (isRow : nav.rows[r]? = some row)
    (place : row[c]? = some i) : nav.HasIndex i :=
  ⟨Int.natCast_nonneg i,
    Int.ofNat_lt.mpr (rowMajor.numbered.eq_start_add isRow place).1⟩

theorem RowMajor.moved_closestInRow (rowMajor : nav.RowMajor) (isRow : nav.rows[r]? = some row)
    (r' targetCol : ℕ) :
    nav.Moved (nav.setFocusIndex (nav.closestInRow (r' % nav.rows.length) targetCol)) := by
  obtain ⟨row', isRow', -⟩ := rowMajor.row_isSome isRow r'
  obtain ⟨c, j, place, closest, -⟩ := rowMajor.closestInRow_spec isRow' targetCol
  exact ⟨j, rowMajor.hasIndex isRow' place, by rw [closest]⟩

theorem hasIndex_mod (filled : nav.grid ≠ []) (index : ℤ) :
    nav.HasIndex (index % nav.grid.length) := by
  have some' : (0 : ℤ) < nav.grid.length := Int.natCast_pos.mpr (List.length_pos_iff.mpr filled)
  exact ⟨Int.emod_nonneg _ some'.ne', Int.emod_lt_of_pos _ some'⟩

theorem RowMajor.moved_arrowRight (rowMajor : nav.RowMajor) (isCur : nav.cur = some cell) :
    nav.Moved (nav.arrowRight cell) :=
  ⟨_, hasIndex_mod (grid_ne_nil_of_cur isCur) _, rowMajor.arrowRight_eq isCur⟩

theorem RowMajor.moved_arrowLeft (rowMajor : nav.RowMajor) (isCur : nav.cur = some cell) :
    nav.Moved (nav.arrowLeft cell) := by
  obtain ⟨i, focus, isCell⟩ := cur_eq_some.mp isCur
  obtain ⟨row, isRow, place⟩ := rowMajor.place_of_cur isCell
  rw [arrowLeft, isRow]
  simp only [focus, rowMajor.indexOf_eq isRow place]
  split
  · obtain ⟨c, isCol⟩ : ∃ c, cell.col = c + 1 := ⟨cell.col - 1, by omega⟩
    rw [isCol] at place ⊢
    have prev := rowMajor.numbered.prev_in_row isRow place
    rw [show ((c + 1 : ℕ) : ℤ) - 1 = c by omega, item?_natCast, prev]
    exact ⟨_, rowMajor.hasIndex isRow prev, rfl⟩
  · exact rowMajor.moved_closestInRow isRow _ _

theorem Valid.moved_handleSliderKey (valid : nav.Valid) (isCur : nav.cur = some cell)
    (slider : E) (key : Key) : nav.Moved (nav.handleSliderKey doc slider key).1 := by
  have same := valid.moved_self isCur
  have next : nav.Moved (nav.setFocusIndex ((nav.focusIndex + 1) % nav.grid.length)) :=
    ⟨_, hasIndex_mod (grid_ne_nil_of_cur isCur) _, rfl⟩
  cases key with
  | enter => exact next
  | space => exact next
  | arrowRight => exact same
  | arrowLeft => exact same
  | arrowDown => exact same
  | arrowUp => exact same
  | escape => exact same
  | n modified => exact same
  | other key => exact same

theorem press_of_cur_none (isCur : nav.cur = none) (doc : Document E) (key : Key) :
    nav.press doc key = nav := by
  rw [press, onKey, isCur]

theorem press_of_not_slider (isCur : nav.cur = some cell) (plain : doc.isSlider cell.el = false)
    (key : Key) :
    nav.press doc key =
      match key with
      | .arrowRight => nav.arrowRight cell
      | .arrowLeft => nav.arrowLeft cell
      | .arrowDown => nav.setFocusIndex (nav.closestInRow (nav.nextRow cell.row) cell.col)
      | .arrowUp => nav.setFocusIndex (nav.closestInRow (nav.prevRow cell.row) cell.col)
      | _ => nav := by
  rw [press, onKey, isCur]
  simp only [plain, Bool.false_eq_true, if_false]
  cases key <;> rfl

/-- One key: the focus moves to an entry of the grid, or it stays. -/
theorem Valid.moved_press (valid : nav.Valid) (isCur : nav.cur = some cell) (doc : Document E)
    (key : Key) : nav.Moved (nav.press doc key) := by
  by_cases slider : doc.isSlider cell.el = true
  · rw [press, onKey, isCur]
    simp only [slider, if_true]
    exact valid.moved_handleSliderKey isCur _ _
  · obtain ⟨i, -, isCell⟩ := cur_eq_some.mp isCur
    obtain ⟨row, isRow, -⟩ := valid.place_of_cur isCell
    rw [press_of_not_slider isCur (Bool.eq_false_iff.mpr slider)]
    cases key with
    | arrowRight => exact valid.moved_arrowRight isCur
    | arrowLeft => exact valid.moved_arrowLeft isCur
    | arrowDown => exact valid.moved_closestInRow isRow _ _
    | arrowUp => exact valid.moved_closestInRow isRow _ _
    | enter => exact valid.moved_self isCur
    | space => exact valid.moved_self isCur
    | escape => exact valid.moved_self isCur
    | n modified => exact valid.moved_self isCur
    | other key => exact valid.moved_self isCur

theorem Valid.press (valid : nav.Valid) (doc : Document E) (key : Key) :
    (nav.press doc key).Valid := by
  cases isCur : nav.cur with
  | none =>
    rw [press_of_cur_none isCur]
    exact valid
  | some cell => exact (valid.moved_press isCur doc key).valid valid

/-- A key leaves the grid as it is. -/
theorem Valid.press_grid (valid : nav.Valid) (doc : Document E) (key : Key) :
    (nav.press doc key).grid = nav.grid ∧ (nav.press doc key).rows = nav.rows := by
  cases isCur : nav.cur with
  | none =>
    rw [press_of_cur_none isCur]
    exact ⟨rfl, rfl⟩
  | some cell =>
    obtain ⟨index, -, moved⟩ := valid.moved_press isCur doc key
    rw [moved]
    exact ⟨rfl, rfl⟩

end NavigationManager

namespace Shell

variable {E : Type}

theorem valid_step {shell : Shell E} (valid : shell.nav.Valid) (event : PageEvent E) :
    (shell.step event).nav.Valid := by
  cases event with
  | change doc => exact valid
  | refresh => exact valid.refresh shell.doc
  | setFocus index => exact valid.setFocus index
  | key key => exact valid.press shell.doc key

theorem valid_foldl {shell : Shell E} (valid : shell.nav.Valid) (events : List (PageEvent E)) :
    (events.foldl step shell).nav.Valid := by
  induction events generalizing shell with
  | nil => exact valid
  | cons event events ih => exact ih (valid_step valid event)

/-- In every run the grid is in order and has the focus. -/
theorem valid_run (doc : Document E) (events : List (PageEvent E)) : (run doc events).nav.Valid :=
  valid_foldl NavigationManager.valid_new events

end Shell

end Luna
