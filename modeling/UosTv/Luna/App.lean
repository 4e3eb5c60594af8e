import UosTv.Serde.Json

/-!
The handlers of status events in the Luna shell (`app.js`), and its volume command.

A field of the shell takes whatever value an event carries under a key, so its type is that of
JavaScript values: `none` is `undefined`. An exception in a handler leaves the shell as it was
before the statement that throws; reading a property of `null` is one. What the shell shows on
the page is left out, the dimming of the body apart.
-/

namespace Luna

open SerdeJson

/-- A value of a JSON text, or `undefined`. -/
abbrev JsValue := Option Value

/-- Whether a value counts as true. -/
def truthy : JsValue → Bool
  | none => false
  | some .null => false
  | some (.bool b) => b
  | some (.number (.posInt n)) => n ≠ 0
  | some (.number (.negInt n)) => n ≠ 0
  -- Zero has two signs.
  | some (.number (.float bits)) => bits &&& 0x7FFFFFFFFFFFFFFF ≠ 0
  | some (.string s) => s ≠ ""
  | some (.array _) => true
  | some (.object _) => true

/-- `a || b`. -/
def orElse (a b : JsValue) : JsValue := if truthy a then a else b

/-- `data.key`, for a key that only objects have. `none` is an exception. -/
def prop (data : Value) (key : String) : Option JsValue :=
  match data with
  | .null => none
  | .object entries => some (get entries key)
  | _ => some none

/-- A notification on the screen: what differs between those of the shell. -/
structure Toast where
  body : JsValue
  priority : JsValue

/-- The fields of `LunaApp` that the handlers read or set, and the filter on the page. -/
structure App where
  volume : JsValue
  muted : JsValue
  wifiConnected : JsValue
  brightness : JsValue
  nightMode : JsValue
  notifications : List Toast
  filter : String

namespace App

/-- The constructor. -/
def new : App where
  volume := some (.number (.posInt 70))
  muted := some (.bool false)
  wifiConnected := some (.bool true)
  brightness := some (.number (.posInt 80))
  nightMode := some (.bool false)
  notifications := []
  filter := ""

variable (app : App)

/-- `if (data.key !== undefined) this.field = data.key`. -/
def assign (field : JsValue) (data : Value) (key : String) : JsValue :=
  ((prop data key).getD none).or field

/-- `_onAudioStatus`. -/
def onAudioStatus (data : Value) : App :=
  { app with volume := assign app.volume data "volume", muted := assign app.muted data "muted" }

/-- `_onNetworkStatus`. -/
def onNetworkStatus (data : Value) : App :=
  match prop data "connected" with
  | none => app
  | some connected => { app with wifiConnected := connected }

/-- `_onPowerStatus`. -/
def onPowerStatus (data : Value) : App :=
  match prop data "state" with
  | none => app
  | some (some (.string "dimmed")) => { app with filter := "brightness(0.7)" }
  | some _ => { app with filter := "" }

/-- `_onDisplayStatus`. -/
def onDisplayStatus (data : Value) : App :=
  { app with
    brightness := assign app.brightness data "brightness"
    nightMode := assign app.nightMode data "night_mode" }

/-- `_showToast`: the newest comes first, and ten are kept. -/
def showToast (message priority : JsValue) : App :=
  { app with notifications := (⟨message, priority⟩ :: app.notifications).take 10 }

/-- What `_onNotification` shows of an entry of the list. `none` is an exception. -/
def toast (n : Value) : Option Toast := do
  let body ← prop n "body"
  let title ← prop n "title"
  let priority ← prop n "priority"
  some ⟨orElse body title, orElse priority (some (.string "normal"))⟩

/-- The toasts of a list, up to an entry that throws. -/
def toastsOf : List Value → List Toast
  | [] => []
  | n :: ns =>
    match toast n with
    | none => []
    | some t => t :: toastsOf ns

/-- What `_onNotification` shows for the parameters of a message. -/
def toasts (params : Value) : List Toast :=
  if truthy (some params) then
    match (prop params "notifications").getD none with
    | some (.array ns) => toastsOf ns
    | _ =>
      let body := (prop params "body").getD none
      if truthy body then
        [⟨body, orElse ((prop params "priority").getD none) (some (.string "normal"))⟩]
      else []
  else []

/-- `_onNotification`. -/
def onNotification (params : Value) : App :=
  (toasts params).foldl (fun app t => app.showToast t.body t.priority) app

/-- The volume that `setVolume` sets, for a whole number. -/
def clampVolume (vol : Int) : UInt64 := .ofNat (max 0 (min 100 vol)).toNat

/-- `setVolume`, with the method and the parameters of what it publishes. -/
def setVolume (vol : Int) : App × String × Value :=
  let volume : Value := .number (.posInt (clampVolume vol))
  ({ app with volume := some volume }, "audio.command.set_volume", .object [("volume", volume)])

/-! ### Parameters under a key that no handler reads -/

section Nested

variable {key : String} {payload : Value}

theorem prop_nested {other : String} (apart : key ≠ other) :
    prop (.object [(key, payload)]) other = some none := by
  simp [prop, apart]

theorem onAudioStatus_nested (volume : key ≠ "volume") (muted : key ≠ "muted") :
    app.onAudioStatus (.object [(key, payload)]) = app := by
  simp [onAudioStatus, assign, prop_nested volume, prop_nested muted]

theorem onNetworkStatus_nested (connected : key ≠ "connected") :
    app.onNetworkStatus (.object [(key, payload)]) = { app with wifiConnected := none } := by
  rw [onNetworkStatus, prop_nested connected]

theorem onPowerStatus_nested (state : key ≠ "state") :
    app.onPowerStatus (.object [(key, payload)]) = { app with filter := "" } := by
  rw [onPowerStatus, prop_nested state]

theorem toasts_nested (notifications : key ≠ "notifications") (body : key ≠ "body") :
    toasts (.object [(key, payload)]) = [] := by
  simp [toasts, prop_nested notifications, prop_nested body, truthy]

end Nested

end App

end Luna
