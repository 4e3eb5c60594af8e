import Mathlib.Data.List.Basic
import Mathlib.Tactic.Common

/-!
Rows of any lengths that number the places of a ragged table, row after row.

The places are a ring: behind the last place of a row comes the first one of the next row, and
behind the last row the first row. One place further is one number more, modulo the number of
places (`next_in_row`, `next_row`), one place back one number less (`prev_in_row`, `prev_row`).
-/

namespace Ragged

section Rows

variable {β : Type*} {rows : List (List β)} {row : List β} {r c : ℕ}

/-- How many places the rows before row `r` have. -/
def start (rows : List (List β)) (r : ℕ) : ℕ := (rows.take r).flatten.length

@[simp] theorem start_zero : start rows 0 = 0 := by
  simp [start]

theorem start_length : start rows rows.length = rows.flatten.length := by
  rw [start, List.take_length]

theorem start_succ (isRow : rows[r]? = some row) :
    start rows (r + 1) = start rows r + row.length := by
  simp [start, List.take_add_one, isRow]

/-- Place `c` of row `r` in the list of all places. -/
theorem getElem?_flatten (isRow : rows[r]? = some row) (inside : c < row.length) :
    rows.flatten[start rows r + c]? = row[c]? := by
  have cut : rows = rows.take r ++ row :: rows.drop (r + 1) := by
    obtain ⟨less, rfl⟩ := List.getElem?_eq_some_iff.mp isRow
    rw [List.getElem_cons_drop, List.take_append_drop]
  have flat : rows.flatten = (rows.take r).flatten ++ (row ++ (rows.drop (r + 1)).flatten) := by
    conv_lhs => rw [cut, List.flatten_append, List.flatten_cons]
  rw [flat, start, List.getElem?_append_right (Nat.le_add_right _ _), Nat.add_sub_cancel_left,
    List.getElem?_append_left inside]

end Rows

/-- The rows hold the numbers of their places: `0` to `n - 1`, row after row. -/
def Numbered (n : ℕ) (rows : List (List ℕ)) : Prop := rows.flatten = List.range n

namespace Numbered

variable {n : ℕ} {rows : List (List ℕ)} {row row' : List ℕ} {r c c' i j : ℕ}

theorem exists_place (numbered : Numbered n rows) (less : i < n) :
    ∃ (r : ℕ) (row : List ℕ) (c : ℕ), rows[r]? = some row ∧ row[c]? = some i := by
  have member : i ∈ rows.flatten := by
    rw [numbered]
    exact List.mem_range.mpr less
  obtain ⟨row, isRow, inRow⟩ := List.mem_flatten.mp member
  obtain ⟨r, atRow⟩ := List.mem_iff_getElem?.mp isRow
  obtain ⟨c, place⟩ := List.mem_iff_getElem?.mp inRow
  exact ⟨r, row, c, atRow, place⟩

theorem eq_start_add (numbered : Numbered n rows) (isRow : rows[r]? = some row)
    (place : row[c]? = some i) : i < n ∧ i = start rows r + c := by
  have inside : c < row.length := (List.getElem?_eq_some_iff.mp place).1
  have number := getElem?_flatten isRow inside
  rw [numbered, place] at number
  obtain ⟨less, equal⟩ := List.getElem?_eq_some_iff.mp number
  rw [List.getElem_range] at equal
  rw [List.length_range] at less
  exact ⟨equal ▸ less, equal.symm⟩

theorem col_unique (numbered : Numbered n rows) (isRow : rows[r]? = some row)
    (place : row[c]? = some i) (place' : row[c']? = some i) : c = c' := by
  have := (numbered.eq_start_add isRow place).2
  have := (numbered.eq_start_add isRow place').2
  omega

theorem start_rows (numbered : Numbered n rows) : start rows rows.length = n := by
  rw [start_length, numbered, List.length_range]

theorem next_in_row (numbered : Numbered n rows) (isRow : rows[r]? = some row)
    (place : row[c]? = some i) (more : c + 1 < row.length) :
    row[c + 1]? = some ((i + 1) % n) := by
  have next := List.getElem?_eq_getElem more
  have := numbered.eq_start_add isRow place
  have := numbered.eq_start_add isRow next
  rw [next, Nat.mod_eq_of_lt (by omega)]
  congr 1
  omega

theorem next_row (numbered : Numbered n rows) (isRow : rows[r]? = some row)
    (place : row[c]? = some i) (last : c + 1 = row.length)
    (isNext : rows[(r + 1) % rows.length]? = some row') (filled : row' ≠ []) :
    row'[0]? = some ((i + 1) % n) := by
  have first := List.getElem?_eq_getElem (List.length_pos_iff.mpr filled)
  have number := numbered.eq_start_add isNext first
  have here := numbered.eq_start_add isRow place
  have behind := start_succ isRow
  have less : r < rows.length := (List.getElem?_eq_some_iff.mp isRow).1
  rw [first]
  congr 1
  -- The next row is the one that begins where this one ends, or the first one.
  rcases Nat.lt_or_ge (r + 1) rows.length with inside | beyond
  · rw [Nat.mod_eq_of_lt inside] at number
    rw [Nat.mod_eq_of_lt (by omega)]
    omega
  · have whole : rows.length = r + 1 := by omega
    have total := numbered.start_rows
    rw [whole, behind] at total
    rw [whole, Nat.mod_self, start_zero] at number
    have wraps : i + 1 = n := by omega
    rw [wraps, Nat.mod_self]
    exact number.2

/-- Going on from the place with number `j` is undone by going back. -/
theorem back_eq (less : j < n) (next : (j + 1) % n = i) : (i + n - 1) % n = j := by
  rcases Nat.lt_or_ge (j + 1) n with inside | beyond
  · rw [Nat.mod_eq_of_lt inside] at next
    rw [show i + n - 1 = j + n by omega, Nat.add_mod_right, Nat.mod_eq_of_lt less]
  · have wraps : j + 1 = n := by omega
    rw [wraps, Nat.mod_self] at next
    rw [show i + n - 1 = j by omega, Nat.mod_eq_of_lt less]

theorem prev_in_row (numbered : Numbered n rows) (isRow : rows[r]? = some row)
    (place : row[c + 1]? = some i) : row[c]? = some ((i + n - 1) % n) := by
  have more : c + 1 < row.length := (List.getElem?_eq_some_iff.mp place).1
  have before := List.getElem?_eq_getElem (Nat.lt_of_succ_lt more)
  have next := numbered.next_in_row isRow before more
  rw [place, Option.some_inj] at next
  rw [before, back_eq (numbered.eq_start_add isRow before).1 next.symm]

theorem prev_row (numbered : Numbered n rows) (isRow : rows[r]? = some row)
    (place : row[0]? = some i)
    (isPrev : rows[(r + rows.length - 1) % rows.length]? = some row') (filled : row' ≠ []) :
    row'[row'.length - 1]? = some ((i + n - 1) % n) := by
  have less : r < rows.length := (List.getElem?_eq_some_iff.mp isRow).1
  have some' : 0 < row'.length := List.length_pos_iff.mpr filled
  have last := List.getElem?_eq_getElem (Nat.sub_one_lt_of_lt some')
  have back : ((r + rows.length - 1) % rows.length + 1) % rows.length = r := by
    rw [Nat.mod_add_mod, show r + rows.length - 1 + 1 = r + rows.length by omega,
      Nat.add_mod_right, Nat.mod_eq_of_lt less]
  have next := numbered.next_row isPrev last (Nat.sub_add_cancel some') (by rw [back]; exact isRow)
    (List.ne_nil_of_mem (List.mem_of_getElem? place))
  rw [place, Option.some_inj] at next
  rw [last, back_eq (numbered.eq_start_add isPrev last).1 next.symm]

end Numbered

end Ragged
