import Mathlib.Data.List.MinMax
import Mathlib.Data.List.Sort
import Mathlib.Algebra.Order.Ring.Rat

/-!
The navigation manager of the Luna shell (`nav.js`): the grid of the elements that can have the
focus, and the keys that move it.

A `Document` is what the page shows at one moment. What style sheets and layout make of it
(which elements are visible, and where) comes with it. What a key does to the page is an
`Effect`; the manager's own state changes here. An exception in the handler of a key leaves the
state as it is. `cols`, which nothing reads, is left out.
-/

namespace Luna

/-- `getBoundingClientRect()`, the fields that are read. -/
structure Rect where
  top : ℚ
  left : ℚ

/-- The attributes of a range slider as `parseFloat` reads them; `none` is `NaN`. -/
structure Slider where
  step : Option ℚ
  min : Option ℚ
  max : Option ℚ
  value : Option ℚ

/-- The page. `E` are its elements. -/
structure Document (E : Type) where
  /-- All elements, in document order. -/
  elements : List E
  body : Option E
  getElementById : String → Option E
  /-- The elements inside of one, in document order. -/
  descendants : E → List E
  classList : E → List String
  tagName : E → String
  type : E → String
  slider : E → Slider
  /-- `offsetParent !== null`. -/
  visible : E → Bool
  rect : E → Rect
  nodup_descendants : ∀ el, (descendants el).Nodup

namespace Document

variable {E : Type} (doc : Document E)

def isSlider (el : E) : Bool := doc.tagName el == "INPUT" && doc.type el == "range"

/-- The classes of `focusableSelector`. -/
def focusableClasses : List String :=
  ["card", "nav-item", "btn", "toggle", "notif-toast", "setting-row"]

/-- `focusableSelector`. -/
def isFocusable (el : E) : Bool :=
  focusableClasses.any (doc.classList el).contains || doc.isSlider el

/-- `document.getElementById(id)`, if the element has the class `active`. -/
def activeOverlay (id : String) : Option E :=
  (doc.getElementById id).filter fun el => (doc.classList el).contains "active"

/-- `_activeScreen`. -/
def activeScreen : Option E :=
  doc.activeOverlay "app-overlay" <|> doc.activeOverlay "notif-overlay" <|>
    (doc.elements.find? fun el =>
      (doc.classList el).contains "screen" && (doc.classList el).contains "active") <|>
    doc.body

/-- The visible focusable elements of the active screen. -/
def focusable : List E :=
  match doc.activeScreen with
  | none => []
  | some screen => ((doc.descendants screen).filter doc.isFocusable).filter doc.visible

/-- What Enter clicks on: in a `.setting-row` the first toggle, button or input inside of it. -/
def clickTarget (el : E) : E :=
  if (doc.classList el).contains "setting-row" then
    ((doc.descendants el).find? fun inner =>
      (doc.classList inner).contains "toggle" || doc.tagName inner == "BUTTON" ||
        doc.tagName inner == "INPUT").getD el
  else el

end Document

/-- `event.key`, and for `n` whether Ctrl or Meta is held. -/
inductive Key where
  | arrowRight
  | arrowLeft
  | arrowDown
  | arrowUp
  | enter
  | space
  | escape
  | n (modified : Bool)
  | other (key : String)

/-- What the handler of a key does to the page. The last four end in a `refresh`, later on. -/
inductive Effect (E : Type) where
  | click (el : E)
  /-- `slider.value = value`, and the events `input` and `change`. -/
  | setValue (slider : E) (value : Option ℚ)
  /-- `window.luna._closeApp()`. -/
  | closeApp
  /-- `notifEl.classList.remove('active')`. -/
  | closeNotifications (notifEl : E)
  /-- `notifEl.classList.toggle('active')`, if there is one. -/
  | toggleNotifications (notifEl : Option E)
  /-- `this.onActivate('screen:home', {})`, if it is set. -/
  | goHome

/-- An element that is sorted into the grid. -/
structure Item (E : Type) where
  el : E
  rect : Rect

/-- An entry of `grid`. -/
structure Cell (E : Type) where
  el : E
  row : ℕ
  col : ℕ
  deriving DecidableEq

/-- The fields of `NavigationManager` that change. -/
structure NavigationManager (E : Type) where
  focusIndex : ℤ
  grid : List (Cell E)
  rows : List (List ℕ)
  deriving DecidableEq

/-- `list[i]`, `none` for `undefined`. -/
def item? {β : Type} (list : List β) (i : ℤ) : Option β :=
  if i < 0 then none else list[i.toNat]?

/-- `row.indexOf(i)`. -/
def indexOf (row : List ℕ) (i : ℤ) : ℤ :=
  match row.findIdx? fun entry : ℕ => (entry : ℤ) = i with
  | some c => c
  | none => -1

namespace NavigationManager

variable {E : Type}

/-- The constructor. -/
def new : NavigationManager E where
  focusIndex := 0
  grid := []
  rows := []

/-! ### The grid -/

/-- The comparison of `sorted.sort`: by `top`, then by `left`. -/
def Above (a b : Item E) : Prop :=
  a.rect.top < b.rect.top ∨ a.rect.top = b.rect.top ∧ a.rect.left ≤ b.rect.left

instance : DecidableRel (Above (E := E)) := fun a b =>
  inferInstanceAs (Decidable
    (a.rect.top < b.rect.top ∨ a.rect.top = b.rect.top ∧ a.rect.left ≤ b.rect.left))

/-- The comparison of `row.sort`. -/
def LeftOf (a b : Item E) : Prop := a.rect.left ≤ b.rect.left

instance : DecidableRel (LeftOf (E := E)) := fun a b =>
  inferInstanceAs (Decidable (a.rect.left ≤ b.rect.left))

/-- An element goes to the last row if it is less than 24 pixels away from the first element there,
or else begins a row of its own. -/
def addItem (rawRows : List (List (Item E))) (item : Item E) : List (List (Item E)) :=
  match rawRows.getLast? with
  | none => [[item]]
  | some lastRow =>
    if lastRow.head?.any fun first => |item.rect.top - first.rect.top| < 24 then
      rawRows.dropLast ++ [lastRow ++ [item]]
    else rawRows ++ [[item]]

/-- The rows of the grid. Both sorts are stable, as insertion sort is. -/
def rawRows (items : List (Item E)) : List (List (Item E)) :=
  ((items.insertionSort Above).foldl addItem []).map (List.insertionSort LeftOf)

/-- A row goes into the grid: its elements get their places and the next numbers. -/
def addRow (nav : NavigationManager E) (rowEls : List (Item E)) : NavigationManager E :=
  { nav with
    grid := nav.grid ++ rowEls.mapIdx fun c item => ⟨item.el, nav.rows.length, c⟩
    rows := nav.rows ++ [rowEls.mapIdx fun c _ => nav.grid.length + c] }

/-- The grid of some elements. -/
def layOut (nav : NavigationManager E) (items : List (Item E)) : NavigationManager E :=
  (rawRows items).foldl addRow { nav with grid := [], rows := [] }

/-- `if (this.focusIndex >= this.grid.length) this.focusIndex = 0`. -/
def clamp (nav : NavigationManager E) : NavigationManager E :=
  if nav.focusIndex ≥ nav.grid.length then { nav with focusIndex := 0 } else nav

/-- `setFocus`. -/
def setFocus (nav : NavigationManager E) (index : ℤ) : NavigationManager E :=
  if index ≥ 0 ∧ index < nav.grid.length then { nav with focusIndex := index } else nav

/-- `refresh`. Without elements it returns early, and so it does without an active screen. -/
def refresh (doc : Document E) (nav : NavigationManager E) : NavigationManager E :=
  match doc.focusable with
  | [] => nav
  | els => (nav.layOut (els.map fun el => ⟨el, doc.rect el⟩)).clamp

/-! ### The keys -/

/-- `this.grid[this.focusIndex]`. -/
def cur (nav : NavigationManager E) : Option (Cell E) := item? nav.grid nav.focusIndex

/-- How far index `idx` is from a column. The indices in `rows` are all in the grid. -/
def dist (nav : NavigationManager E) (targetCol : ℕ) (idx : ℕ) : ℕ :=
  (nav.grid[idx]?).elim 0 fun cell => ((cell.col : ℤ) - targetCol).natAbs

/-- `_closestInRow`. The loop of the source is that of `List.argmin`: of the indices at the least
distance it takes the first. -/
def closestInRow (nav : NavigationManager E) (targetRow targetCol : ℕ) : ℤ :=
  match (nav.rows[targetRow]?).bind (List.argmin (nav.dist targetCol)) with
  | none => -1
  | some best => best

/-- The number of the row below and of the row above, around the grid. -/
def nextRow (nav : NavigationManager E) (row : ℕ) : ℕ := (row + 1) % nav.rows.length

def prevRow (nav : NavigationManager E) (row : ℕ) : ℕ :=
  (row + nav.rows.length - 1) % nav.rows.length

/-- `this.focusIndex = focusIndex`. -/
def setFocusIndex (nav : NavigationManager E) (focusIndex : ℤ) : NavigationManager E :=
  { nav with focusIndex := focusIndex }

/-- The case `'ArrowRight'` of `_onKey`. -/
def arrowRight (nav : NavigationManager E) (cell : Cell E) : NavigationManager E :=
  match nav.rows[cell.row]? with
  | none => nav
  | some row =>
    let colIdx := indexOf row nav.focusIndex
    if colIdx < row.length - 1 then
      -- The index is in the row: the comparison has just said so.
      ((item? row (colIdx + 1)).map fun idx => nav.setFocusIndex idx).getD nav
    else nav.setFocusIndex (nav.closestInRow (nav.nextRow cell.row) 0)

/-- The case `'ArrowLeft'` of `_onKey`. -/
def arrowLeft (nav : NavigationManager E) (cell : Cell E) : NavigationManager E :=
  match nav.rows[cell.row]? with
  | none => nav
  | some row =>
    let colIdx := indexOf row nav.focusIndex
    if colIdx > 0 then ((item? row (colIdx - 1)).map fun idx => nav.setFocusIndex idx).getD nav
    else nav.setFocusIndex (nav.closestInRow (nav.prevRow cell.row) 999)

/-- `parseFloat(…) || default`. -/
def orDefault (value : Option ℚ) (default : ℚ) : ℚ :=
  match value with
  | none => default
  | some v => if v = 0 then default else v

/-- `_handleSliderKey`. -/
def handleSliderKey (doc : Document E) (nav : NavigationManager E) (slider : E) (key : Key) :
    NavigationManager E × Option (Effect E) :=
  let attributes := doc.slider slider
  let step := orDefault attributes.step 1
  let min' := orDefault attributes.min 0
  let max' := orDefault attributes.max 100
  match key with
  | .arrowRight | .arrowUp =>
    (nav, some (.setValue slider (attributes.value.map fun val => min max' (val + step))))
  | .arrowLeft | .arrowDown =>
    (nav, some (.setValue slider (attributes.value.map fun val => max min' (val - step))))
  | .enter | .space =>
    (nav.setFocusIndex ((nav.focusIndex + 1) % nav.grid.length), none)
  | _ => (nav, none)

/-- The case `'Escape'` of `_onKey`: an open app is closed, or else an open list of notifications,
or else the shell goes home. -/
def escape (doc : Document E) : Effect E :=
  if (doc.activeOverlay "app-overlay").isSome then .closeApp
  else
    match doc.activeOverlay "notif-overlay" with
    | some notifEl => .closeNotifications notifEl
    | none => .goHome

/-- `_onKey`. In an empty grid there is no current element. -/
def onKey (doc : Document E) (nav : NavigationManager E) (key : Key) :
    NavigationManager E × Option (Effect E) :=
  match nav.cur with
  | none => (nav, none)
  | some cell =>
    if doc.isSlider cell.el then nav.handleSliderKey doc cell.el key
    else
      match key with
      | .arrowRight => (nav.arrowRight cell, none)
      | .arrowLeft => (nav.arrowLeft cell, none)
      | .arrowDown =>
        (nav.setFocusIndex (nav.closestInRow (nav.nextRow cell.row) cell.col), none)
      | .arrowUp =>
        (nav.setFocusIndex (nav.closestInRow (nav.prevRow cell.row) cell.col), none)
      | .enter | .space => (nav, some (.click (doc.clickTarget cell.el)))
      | .escape => (nav, some (escape doc))
      | .n modified =>
        (nav, if modified then none
          else some (.toggleNotifications (doc.getElementById "notif-overlay")))
      | .other _ => (nav, none)

/-- The manager after a key. -/
def press (doc : Document E) (nav : NavigationManager E) (key : Key) : NavigationManager E :=
  (nav.onKey doc key).1

end NavigationManager

/-! ### Runs -/

/-- What can happen. A `change` is whatever makes the page another one: a screen or an overlay that
is shown or hidden, new notifications, a click, a timer. -/
inductive PageEvent (E : Type) where
  | change (doc : Document E)
  | refresh
  | setFocus (index : ℤ)
  | key (key : Key)

/-- The page and the navigation manager. -/
structure Shell (E : Type) where
  doc : Document E
  nav : NavigationManager E

namespace Shell

variable {E : Type}

def step (shell : Shell E) : PageEvent E → Shell E
  | .change doc => { shell with doc := doc }
  | .refresh => { shell with nav := shell.nav.refresh shell.doc }
  | .setFocus index => { shell with nav := shell.nav.setFocus index }
  | .key key => { shell with nav := shell.nav.press shell.doc key }

/-- A run from a new manager on a page. -/
def run (doc : Document E) (events : List (PageEvent E)) : Shell E :=
  events.foldl step ⟨doc, .new⟩

end Shell

end Luna
