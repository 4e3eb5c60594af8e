import UosTv.Services.Netmd

/-!
The active interface of `netmd`, and what is derived from it.

`active_interface` takes the first interface that the map yields, and the map may yield its
interfaces in any order. The answers are those of the network alone iff there is no more than one
interface to take (`answers_agree_iff`).
-/

namespace Netmd

open Rust

/-- The entry of the table under which an interface stands. -/
abbrev Entry := Σ _ : String, InterfaceState

def InterfaceType.connection : InterfaceType → String
  | .wiFi => "wifi"
  | .ethernet => "ethernet"
  | .bluetooth => "bluetooth"
  | _ => "none"

def InterfaceType.metered (iftype : InterfaceType) : Bool :=
  iftype = .wiFi || iftype = .bluetooth

namespace NetworkState

/-- The same interfaces, in whatever order the maps yield them. -/
def SameInterfaces (state' state : NetworkState) : Prop :=
  ∀ name, state'.interfaces.get name = state.interfaces.get name

variable (state : NetworkState)

/-- The first active interface that the map yields. -/
def firstActive : Option Entry := state.interfaces.entries.find? fun entry => entry.2.active

/-- No two interfaces are active. -/
def OneActive : Prop :=
  ∀ name name' iface iface', state.interfaces.get name = some iface →
    state.interfaces.get name' = some iface' → iface.active → iface'.active → name = name'

/-- All active interfaces are metered, or none is. -/
def UniformlyMetered : Prop :=
  ∀ name name' iface iface', state.interfaces.get name = some iface →
    state.interfaces.get name' = some iface' → iface.active → iface'.active →
    iface.iftype.metered = iface'.iftype.metered

theorem activeState_eq : state.activeState = state.firstActive.map (·.2) := by
  rw [activeState, activeInterface, firstActive]
  cases found : state.interfaces.entries.find? fun entry => entry.2.active with
  | none => rfl
  | some entry => exact HashMap.mem_entries.mp (List.mem_of_find?_eq_some found)

theorem activeInterface_eq :
    state.activeInterface = state.firstActive.elim none fun entry => some entry.1 := by
  rw [activeInterface, ← firstActive]
  cases state.firstActive <;> rfl

theorem connectionType_eq :
    state.connectionType = state.firstActive.elim "none" fun entry => entry.2.iftype.connection := by
  rw [connectionType, activeState_eq]
  cases state.firstActive with
  | none => rfl
  | some entry =>
    simp only [Option.map_some, Option.elim_some]
    generalize entry.2.iftype = iftype
    cases iftype <;> rfl

theorem isMetered_eq :
    state.isMetered = state.firstActive.elim true fun entry => entry.2.iftype.metered := by
  rw [isMetered, activeState_eq]
  cases state.firstActive <;> rfl

variable {state} {β : Type} {d : β} {f : Entry → β}

/-- What is derived from the first active interface is the same for every order iff all active
interfaces give the same. -/
theorem firstActive_agree_iff :
    (∀ state' : NetworkState, state'.SameInterfaces state →
        state'.firstActive.elim d f = state.firstActive.elim d f) ↔
      ∀ name name' iface iface', state.interfaces.get name = some iface →
        state.interfaces.get name' = some iface' → iface.active → iface'.active →
        f ⟨name, iface⟩ = f ⟨name', iface'⟩ := by
  have search := HashMap.elim_find?_iff (m := state.interfaces)
    (p := fun entry => entry.2.active) (d := d) (f := f)
  constructor
  · intro same name name' iface iface' here here' active active'
    have orders := search.mp fun interfaces sameTable => same ⟨interfaces, false⟩ sameTable
    exact orders ⟨name, iface⟩ (HashMap.mem_entries.mpr here) ⟨name', iface'⟩
      (HashMap.mem_entries.mpr here') active active'
  · intro agree state' sameTable
    refine search.mpr ?_ state'.interfaces sameTable
    intro entry mem entry' mem' active active'
    exact agree entry.1 entry'.1 entry.2 entry'.2 (HashMap.mem_entries.mp mem)
      (HashMap.mem_entries.mp mem') active active'

/-- With one active interface, all that is derived from it is that of the network. -/
theorem OneActive.agree (one : state.OneActive) {state' : NetworkState}
    (same : state'.SameInterfaces state) :
    state'.firstActive.elim d f = state.firstActive.elim d f := by
  refine firstActive_agree_iff.mpr ?_ state' same
  intro name name' iface iface' here here' active active'
  obtain rfl := one name name' iface iface' here here' active active'
  rw [here] at here'
  cases here'
  rfl

/-- **The three answers depend only on the interfaces iff** no two of them are active; the answer
whether the connection is metered does iff all active ones are, or none. -/
theorem answers_agree_iff (state : NetworkState) :
    ((∀ state' : NetworkState, state'.SameInterfaces state →
        state'.activeInterface = state.activeInterface ∧
          state'.connectionType = state.connectionType ∧ state'.isMetered = state.isMetered) ↔
      state.OneActive) ∧
    ((∀ state' : NetworkState, state'.SameInterfaces state →
        state'.isMetered = state.isMetered) ↔ state.UniformlyMetered) := by
  simp only [activeInterface_eq, connectionType_eq, isMetered_eq]
  refine ⟨⟨fun agree => ?_, fun one state' same => ?_⟩, firstActive_agree_iff⟩
  · have names := firstActive_agree_iff.mp fun state' same => (agree state' same).1
    intro name name' iface iface' here here' active active'
    exact Option.some.inj (names name name' iface iface' here here' active active')
  · exact ⟨one.agree same, one.agree same, one.agree same⟩

end NetworkState

/-! ### Examples -/

/-- A connected interface. -/
def connectedIface (name : String) (iftype : InterfaceType) : InterfaceState where
  name := name
  iftype := iftype
  up := true
  connected := true
  ipAddress := some "0.0.0.0"
  ssid := none
  signalStrength := none

def wired : String × InterfaceState := ("eth0", connectedIface "eth0" .ethernet)

def wireless : String × InterfaceState := ("wlan0", connectedIface "wlan0" .wiFi)

/-- Two interfaces are connected, and the answers are those for the one that comes first. -/
theorem order_decides : ∃ state state' : NetworkState, state'.SameInterfaces state ∧
    state.activeInterface = some "eth0" ∧ state.connectionType = "ethernet" ∧
    state.isMetered = false ∧
    state'.activeInterface = some "wlan0" ∧ state'.connectionType = "wifi" ∧
    state'.isMetered = true := by
  refine ⟨⟨.collect [wireless, wired], true⟩, ⟨.collect [wired, wireless], true⟩, ?_,
    rfl, rfl, rfl, rfl, rfl, rfl⟩
  intro name
  simp only [HashMap.collect, List.foldl_cons, List.foldl_nil, HashMap.get_insert]
  by_cases here : name = "eth0"
  · simp [here, wired, wireless]
  · by_cases there : name = "wlan0"
    · simp [there, wired, wireless]
    · simp [here, there, wired, wireless]

end Netmd
