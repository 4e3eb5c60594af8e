import UosTv.Luna.Moves

/-!
Whose elements the grid has. A refresh rebuilds it from the active screen or overlay, except
where it finds nothing there: it returns early and leaves the grid of before. So the grid has
the elements of what is active exactly after those refreshes that find an element, or that had
an empty grid (`exact_refresh_iff`); after any other one Enter clicks on what is not active.
-/

namespace Luna

variable {E : Type}

namespace NavigationManager

variable {nav : NavigationManager E} {doc : Document E}

/-- The grid has the visible focusable elements of the active screen, each once. -/
structure Exact (doc : Document E) (nav : NavigationManager E) : Prop where
  nodup : (nav.grid.map Cell.el).Nodup
  mem_iff : ∀ el, el ∈ nav.grid.map Cell.el ↔ el ∈ doc.focusable

theorem nodup_focusable (doc : Document E) : doc.focusable.Nodup := by
  rw [Document.focusable]
  split
  · exact List.nodup_nil
  · exact ((doc.nodup_descendants _).filter _).filter _

theorem exact_refresh_iff :
    (nav.refresh doc).Exact doc ↔ doc.focusable ≠ [] ∨ nav.grid = [] := by
  constructor
  · intro exact'
    by_contra neither
    obtain ⟨none', old⟩ := not_or.mp neither
    rw [refresh_of_nil (not_not.mp none')] at exact'
    obtain ⟨cell, isCell⟩ := List.exists_mem_of_ne_nil _ old
    have here := (exact'.mem_iff cell.el).mp (List.mem_map_of_mem isCell)
    rw [not_not.mp none'] at here
    cases here
  · intro either
    by_cases none' : doc.focusable = []
    · have empty := either.resolve_left (not_not.mpr none')
      rw [refresh_of_nil none']
      exact { nodup := by simp [empty], mem_iff := by simp [empty, none'] }
    · have perm := refresh_perm nav none'
      exact { nodup := perm.nodup_iff.mpr (nodup_focusable doc), mem_iff := fun _ => perm.mem_iff }

theorem Exact.of_grid {nav' : NavigationManager E} (exact' : nav.Exact doc)
    (grid : nav'.grid = nav.grid) : nav'.Exact doc where
  nodup := by
    rw [grid]
    exact exact'.nodup
  mem_iff := by
    rw [grid]
    exact exact'.mem_iff

theorem setFocus_grid (nav : NavigationManager E) (index : ℤ) :
    (nav.setFocus index).grid = nav.grid := by
  rw [setFocus]
  split <;> rfl

end NavigationManager

namespace Shell

/-- Events that leave the page and the grid as they are. -/
def quiet : PageEvent E → Bool
  | .setFocus _ => true
  | .key _ => true
  | .change _ => false
  | .refresh => false

/-- Nothing but quiet events has happened since the last refresh. -/
def Settled (before : List (PageEvent E)) : Prop :=
  ∃ earlier since, before = earlier ++ .refresh :: since ∧ ∀ event ∈ since, quiet event = true

/-- Each refresh of a run finds a visible focusable element in what is active, or the grid is still
empty. -/
def RefreshesFind (start : Document E) (events : List (PageEvent E)) : Prop :=
  ∀ before after, events = before ++ .refresh :: after →
    (run start before).doc.focusable ≠ [] ∨ (run start before).nav.grid = []

variable {start : Document E} {events : List (PageEvent E)}

theorem run_append (before after : List (PageEvent E)) :
    run start (before ++ after) = after.foldl step (run start before) := by
  rw [run, run, List.foldl_append]

theorem exact_foldl_quiet {shell : Shell E} {since : List (PageEvent E)} (valid : shell.nav.Valid)
    (exact' : shell.nav.Exact shell.doc) (all : ∀ event ∈ since, quiet event = true) :
    (since.foldl step shell).nav.Exact (since.foldl step shell).doc := by
  induction since generalizing shell with
  | nil => exact exact'
  | cons event since ih =>
    rw [List.forall_mem_cons] at all
    refine ih (valid_step valid event) ?_ all.2
    cases event with
    | change doc => cases all.1
    | refresh => cases all.1
    | setFocus index => exact exact'.of_grid (NavigationManager.setFocus_grid _ _)
    | key key => exact exact'.of_grid (valid.press_grid _ _).1

/-- While only keys follow a refresh that was exact, the grid stays so. -/
theorem RefreshesFind.exact {before after : List (PageEvent E)} (find : RefreshesFind start events)
    (cut : events = before ++ after) (settled : Settled before) :
    (run start before).nav.Exact (run start before).doc := by
  obtain ⟨earlier, since, rfl, all⟩ := settled
  have found := find earlier (since ++ after) (by rw [cut, List.append_assoc]; rfl)
  rw [run_append, List.foldl_cons]
  exact exact_foldl_quiet (valid_step (valid_run start earlier) .refresh)
    (NavigationManager.exact_refresh_iff.mpr found) all

end Shell

end Luna
