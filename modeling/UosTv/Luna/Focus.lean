import UosTv.Luna.Moves

/-!
What the keys do to the focus on a page with visible focusable elements: the arrow to the right,
and on a slider Enter, go once around all of them; the arrow to the left undoes the one to the
right; the arrows up and down go to the nearest column of the row above or below. On a slider
the four arrows set its value and leave the focus.
-/

namespace Luna

namespace NavigationManager

variable {E : Type} {nav : NavigationManager E} {doc : Document E} {cell : Cell E}

/-- Whether a slider has the focus. -/
def onSlider (doc : Document E) (nav : NavigationManager E) : Bool :=
  nav.cur.any fun cell => doc.isSlider cell.el

/-- The key that goes on from the current element. -/
def advanceKey (doc : Document E) (nav : NavigationManager E) : Key :=
  if nav.onSlider doc then .enter else .arrowRight

def advance (doc : Document E) (nav : NavigationManager E) : NavigationManager E :=
  nav.press doc (nav.advanceKey doc)

/-- Keys one after the other, each with the page as it is then. -/
def pressAll (nav : NavigationManager E) (keys : List (Document E × Key)) : NavigationManager E :=
  keys.foldl (fun nav pressed => nav.press pressed.1 pressed.2) nav

/-- The manager has been refreshed on this page, in any run, and keys have been pressed since. -/
def LaidOut (doc : Document E) (nav : NavigationManager E) : Prop :=
  ∃ (start : Document E) (events : List (PageEvent E)) (keys : List (Document E × Key)),
    nav = ((Shell.run start events).nav.refresh doc).pressAll keys

/-- The focus moves to a row, given the row it comes from, and no column of that row is nearer. -/
def MovesToRow (nav nav' : NavigationManager E) (rowFrom : ℕ → ℕ) : Prop :=
  ∃ cell cell', nav.cur = some cell ∧ nav'.cur = some cell' ∧ cell'.row = rowFrom cell.row ∧
    ∀ other ∈ nav.grid, other.row = cell'.row →
      ((cell'.col : ℤ) - cell.col).natAbs ≤ ((other.col : ℤ) - cell.col).natAbs

/-! ### After a refresh -/

theorem Valid.pressAll (valid : nav.Valid) (keys : List (Document E × Key)) :
    (nav.pressAll keys).Valid ∧ (nav.pressAll keys).grid = nav.grid := by
  induction keys generalizing nav with
  | nil => exact ⟨valid, rfl⟩
  | cons pressed keys ih =>
    obtain ⟨valid', grid⟩ := ih (valid.press pressed.1 pressed.2)
    exact ⟨valid', grid.trans (valid.press_grid _ _).1⟩

theorem LaidOut.spec (laidOut : nav.LaidOut doc) (some' : doc.focusable ≠ []) :
    nav.Valid ∧ (nav.grid.map Cell.el).Perm doc.focusable ∧ nav.grid ≠ [] := by
  obtain ⟨start, events, keys, rfl⟩ := laidOut
  have valid := (Shell.valid_run start events).refresh doc
  obtain ⟨valid', grid⟩ := valid.pressAll keys
  have perm := refresh_perm (Shell.run start events).nav some'
  rw [grid]
  refine ⟨valid', perm, ?_⟩
  intro empty
  rw [empty] at perm
  exact some' (List.nil_perm.mp perm)

/-! ### Going on -/

/-- On every element the key that goes on moves the focus to the next index. -/
theorem Valid.advance_eq (valid : nav.Valid) (filled : nav.grid ≠ []) :
    nav.advance doc = nav.setFocusIndex ((nav.focusIndex + 1) % nav.grid.length) := by
  obtain ⟨cell, isCur⟩ := valid.cur filled
  rw [advance, advanceKey, onSlider, isCur, Option.any_some]
  split
  · rename_i slider
    rw [NavigationManager.press, onKey, isCur]
    simp only [slider, if_true]
    rfl
  · rename_i plain
    rw [press_of_not_slider isCur (Bool.eq_false_iff.mpr plain)]
    exact valid.arrowRight_eq isCur

theorem Valid.iterate_advance (valid : nav.Valid) (filled : nav.grid ≠ []) (k : ℕ) :
    (advance doc)^[k] nav = nav.setFocusIndex ((nav.focusIndex + k) % nav.grid.length) := by
  induction k with
  | zero =>
    have has := valid.hasIndex filled
    rw [Function.iterate_zero, id_eq, Nat.cast_zero, add_zero, Int.emod_eq_of_lt has.1 has.2]
    rfl
  | succ k ih =>
    have moved : nav.Moved (nav.setFocusIndex ((nav.focusIndex + k) % nav.grid.length)) :=
      ⟨_, hasIndex_mod filled _, rfl⟩
    rw [Function.iterate_succ_apply', ih, (moved.valid valid).advance_eq filled]
    simp only [setFocusIndex, Int.emod_add_emod, Nat.cast_succ, add_assoc]

/-- As many steps as there are elements lead back. -/
theorem Valid.iterate_advance_length (valid : nav.Valid) (filled : nav.grid ≠ []) :
    (advance doc)^[nav.grid.length] nav = nav := by
  have has := valid.hasIndex filled
  rw [valid.iterate_advance filled, Int.add_emod_right, Int.emod_eq_of_lt has.1 has.2]
  rfl

/-- On the way they visit the elements in the order of the grid, from the current one on. -/
theorem Valid.visited_eq_rotate (valid : nav.Valid) (filled : nav.grid ≠ []) :
    ((List.range nav.grid.length).map fun k => ((advance doc)^[k] nav).cur.map Cell.el) =
      (nav.grid.map fun cell => some cell.el).rotate nav.focusIndex.toNat := by
  have has := valid.hasIndex filled
  apply List.ext_getElem
  · simp
  · intro k less less'
    have inside : (k + nav.focusIndex.toNat) % nav.grid.length < nav.grid.length :=
      Nat.mod_lt _ (List.length_pos_iff.mpr filled)
    have index : (nav.focusIndex + k) % nav.grid.length =
        ((k + nav.focusIndex.toNat) % nav.grid.length : ℕ) := by
      rw [Int.natCast_mod, Nat.cast_add, Int.toNat_of_nonneg has.1, add_comm]
    simp only [List.getElem_map, List.getElem_range, List.getElem_rotate, List.length_map]
    rw [valid.iterate_advance filled, NavigationManager.cur, setFocusIndex, index, item?_natCast,
      List.getElem?_eq_getElem inside, Option.map_some]

/-! ### Back and across -/

theorem not_slider_of_onSlider (isCur : nav.cur = some cell) (plain : nav.onSlider doc = false) :
    doc.isSlider cell.el = false := by
  rwa [onSlider, isCur, Option.any_some] at plain

/-- The left arrow undoes the right one. -/
theorem Valid.left_after_right (valid : nav.Valid) (filled : nav.grid ≠ [])
    (fit : ∀ row ∈ nav.rows, row.length ≤ 1000) (plain : nav.onSlider doc = false)
    (plain' : (nav.press doc .arrowRight).onSlider doc = false) :
    (nav.press doc .arrowRight).press doc .arrowLeft = nav := by
  have has := valid.hasIndex filled
  obtain ⟨cell, isCur⟩ := valid.cur filled
  have right : nav.press doc .arrowRight =
      nav.setFocusIndex ((nav.focusIndex + 1) % nav.grid.length) := by
    rw [press_of_not_slider isCur (not_slider_of_onSlider isCur plain)]
    exact valid.arrowRight_eq isCur
  have valid' := valid.press doc .arrowRight
  rw [right] at plain' valid' ⊢
  obtain ⟨cell', isCur'⟩ := valid'.cur filled
  rw [press_of_not_slider isCur' (not_slider_of_onSlider isCur' plain')]
  rw [valid'.arrowLeft_eq isCur' fit]
  simp only [setFocusIndex]
  congr 1
  rw [add_sub_assoc, Int.emod_add_emod, show nav.focusIndex + 1 + ((nav.grid.length : ℤ) - 1) =
    nav.focusIndex + nav.grid.length by omega, Int.add_emod_right, Int.emod_eq_of_lt has.1 has.2]

/-- The nearest entry of a row. -/
theorem RowMajor.movesToRow (rowMajor : nav.RowMajor) (isCur : nav.cur = some cell)
    (rowFrom : ℕ → ℕ) (isRow : ∃ row, nav.rows[rowFrom cell.row]? = some row) :
    nav.MovesToRow (nav.setFocusIndex (nav.closestInRow (rowFrom cell.row) cell.col)) rowFrom := by
  obtain ⟨row, isRow⟩ := isRow
  obtain ⟨c, i, place, closest, least⟩ := rowMajor.closestInRow_spec isRow cell.col
  obtain ⟨cell', isCell', sameRow, rfl⟩ := rowMajor.place isRow place
  refine ⟨cell, cell', isCur, ?_, sameRow, ?_⟩
  · rw [closest]
    exact cur_eq_some.mpr ⟨i, rfl, isCell'⟩
  · intro other isOther inRow
    obtain ⟨j, isEntry⟩ := List.mem_iff_getElem?.mp isOther
    obtain ⟨row', isRow', place'⟩ := rowMajor.place_of_cur isEntry
    rw [inRow, sameRow, isRow, Option.some_inj] at isRow'
    subst isRow'
    exact least _ (List.getElem?_eq_some_iff.mp place').1

theorem Valid.vertical (valid : nav.Valid) (filled : nav.grid ≠ [])
    (plain : nav.onSlider doc = false) :
    nav.MovesToRow (nav.press doc .arrowDown) nav.nextRow ∧
      nav.MovesToRow (nav.press doc .arrowUp) nav.prevRow := by
  obtain ⟨cell, isCur⟩ := valid.cur filled
  obtain ⟨i, -, isCell⟩ := cur_eq_some.mp isCur
  obtain ⟨row, isRow, -⟩ := valid.place_of_cur isCell
  have plain' := not_slider_of_onSlider isCur plain
  rw [press_of_not_slider isCur plain', press_of_not_slider isCur plain']
  obtain ⟨below, isBelow, -⟩ := valid.row_isSome isRow (cell.row + 1)
  obtain ⟨above, isAbove, -⟩ := valid.row_isSome isRow (cell.row + nav.rows.length - 1)
  exact ⟨valid.movesToRow isCur nav.nextRow ⟨below, isBelow⟩,
    valid.movesToRow isCur nav.prevRow ⟨above, isAbove⟩⟩

/-- **The moves of the focus** on a page with visible focusable elements, after a refresh and any
keys. -/
theorem focus_moves (laidOut : nav.LaidOut doc) (some' : doc.focusable ≠ []) :
    nav.HasIndex nav.focusIndex ∧
      (nav.advance doc).focusIndex = (nav.focusIndex + 1) % nav.grid.length ∧
      ((List.range nav.grid.length).map fun k => ((advance doc)^[k] nav).cur.map Cell.el).Perm
        (doc.focusable.map some) ∧
      (advance doc)^[nav.grid.length] nav = nav ∧
      ((∀ row ∈ nav.rows, row.length ≤ 1000) → nav.onSlider doc = false →
        (nav.press doc .arrowRight).onSlider doc = false →
        (nav.press doc .arrowRight).press doc .arrowLeft = nav) ∧
      (nav.onSlider doc = false →
        nav.MovesToRow (nav.press doc .arrowDown) nav.nextRow ∧
          nav.MovesToRow (nav.press doc .arrowUp) nav.prevRow) := by
  obtain ⟨valid, perm, filled⟩ := laidOut.spec some'
  refine ⟨valid.hasIndex filled, ?_, ?_, valid.iterate_advance_length filled,
    valid.left_after_right filled, valid.vertical filled⟩
  · rw [valid.advance_eq filled]
    rfl
  · rw [valid.visited_eq_rotate filled]
    refine (List.rotate_perm _ _).trans ?_
    simpa [Function.comp_def] using perm.map some

/-! ### A slider -/

/-- What is inside of the body (0) and of the active screen (1) of a page with a slider (2) above a
card (3). -/
def sliderPageDescendants (el : ℕ) : List ℕ :=
  if el = 0 then [1, 2, 3] else if el = 1 then [2, 3] else []

theorem nodup_sliderPageDescendants (el : ℕ) : (sliderPageDescendants el).Nodup := by
  rw [sliderPageDescendants]
  split
  · decide
  · split <;> decide

def sliderPage : Document ℕ where
  elements := [0, 1, 2, 3]
  body := some 0
  getElementById := fun _ => none
  descendants := sliderPageDescendants
  classList := fun el => if el = 1 then ["screen", "active"] else if el = 3 then ["card"] else []
  tagName := fun el => if el = 0 then "BODY" else if el = 2 then "INPUT" else "DIV"
  type := fun el => if el = 2 then "range" else ""
  slider := fun _ => ⟨none, some 0, some 100, some 80⟩
  visible := fun _ => true
  rect := fun el => if el = 2 then ⟨0, 0⟩ else ⟨100, 0⟩
  nodup_descendants := nodup_sliderPageDescendants

def sliderNav : NavigationManager ℕ := new.refresh sliderPage

theorem sliderPage_focusable : sliderPage.focusable = [2, 3] := by
  decide

theorem sliderNav_eq : sliderNav = ⟨0, [⟨2, 0, 0⟩, ⟨3, 1, 0⟩], [[0], [1]]⟩ := by
  decide +kernel

theorem sliderNav_laidOut : sliderNav.LaidOut sliderPage :=
  ⟨sliderPage, [], [], rfl⟩

/-- On the slider Enter goes on to the card, and from there the right arrow back. -/
theorem focus_moves_slider :
    sliderNav.LaidOut sliderPage ∧ sliderPage.focusable = [2, 3] ∧
      (advance sliderPage)^[sliderNav.grid.length] sliderNav = sliderNav :=
  ⟨sliderNav_laidOut, sliderPage_focusable,
    (focus_moves sliderNav_laidOut (ne_of_eq_of_ne sliderPage_focusable
      (List.cons_ne_nil _ _))).2.2.2.1⟩

/-- A slider keeps the focus when the down arrow is pressed. -/
theorem slider_keeps_focus :
    sliderNav.LaidOut sliderPage ∧ sliderPage.focusable = [2, 3] ∧
      (∀ row ∈ sliderNav.rows, row.length ≤ 1000) ∧
      ¬ sliderNav.MovesToRow (sliderNav.press sliderPage .arrowDown) sliderNav.nextRow := by
  refine ⟨sliderNav_laidOut, sliderPage_focusable, by simp [sliderNav_eq], ?_⟩
  have stays : sliderNav.press sliderPage .arrowDown = sliderNav := by
    rw [sliderNav_eq]
    rfl
  rw [stays, sliderNav_eq]
  rintro ⟨cell, cell', isCur, isCur', moved, -⟩
  rw [isCur, Option.some_inj] at isCur'
  subst isCur'
  have first : cell = ⟨2, 0, 0⟩ := (Option.some_inj.mp isCur).symm
  subst first
  cases moved

end NavigationManager

end Luna
