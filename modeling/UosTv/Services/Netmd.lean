import UosTv.Rust.Collections
import UosTv.Stardust.Params

/-!
The state of the network (`netmd`, `state.rs` and `main.rs`): what is derived from the table of
interfaces, and how it is published.
-/

namespace Netmd

open Rust SerdeJson Stardust

inductive InterfaceType where
  | ethernet
  | wiFi
  | bluetooth
  | loopback
  | unknown
deriving DecidableEq, Repr

/-- The text of `{:?}`. -/
def InterfaceType.debug : InterfaceType → String
  | .ethernet => "Ethernet"
  | .wiFi => "WiFi"
  | .bluetooth => "Bluetooth"
  | .loopback => "Loopback"
  | .unknown => "Unknown"

structure InterfaceState where
  name : String
  iftype : InterfaceType
  up : Bool
  connected : Bool
  ipAddress : Option String
  ssid : Option String
  signalStrength : Option Int32
deriving DecidableEq

structure NetworkState where
  interfaces : HashMap String InterfaceState
  internetAvailable : Bool

/-- A connected interface that leads somewhere. -/
def InterfaceState.active (iface : InterfaceState) : Bool :=
  iface.connected && iface.iftype ≠ .loopback

namespace InterfaceState

/-- An `i32` as JSON. -/
def int32 (n : Int32) : Value :=
  if n.toInt < 0 then .number (.negInt n.toInt64) else .number (.posInt (.ofNat n.toInt.toNat))

variable (iface : InterfaceState)

/-- The entry of an interface in what is published. -/
def toJson : Value := record [
  ("name", .string iface.name),
  ("iftype", .string iface.iftype.debug),
  ("up", .bool iface.up),
  ("connected", .bool iface.connected),
  ("ip_address", Serde.toValue iface.ipAddress),
  ("ssid", Serde.toValue iface.ssid),
  ("signal_strength", (iface.signalStrength.map int32).getD .null)]

theorem canonical_int32 (n : Int32) : Canonical (int32 n) := by
  unfold int32
  split_ifs with negative
  · exact .negInt _ (Int32.toInt_toInt64 n ▸ negative)
  · exact .posInt _

theorem canonical_toJson : Canonical iface.toJson := by
  have strength : Canonical ((iface.signalStrength.map int32).getD .null) := by
    cases iface.signalStrength with
    | none => exact .null
    | some n => exact canonical_int32 n
  refine canonical_record ?_ (by simp)
  simp only [List.forall_mem_cons]
  exact ⟨.string _, .string _, .bool _, .bool _, canonical_optionString _,
    canonical_optionString _, strength, List.forall_mem_nil _⟩

end InterfaceState

namespace NetworkState

variable (state : NetworkState)

/-- `interfaces.values()`. -/
def values : List InterfaceState := state.interfaces.entries.map (·.2)

def connected : Bool := state.values.any (·.active)

def activeInterface : Option String :=
  (state.interfaces.entries.find? fun entry => entry.2.active).map (·.1)

/-- The table entry of the active interface. -/
def activeState : Option InterfaceState := state.activeInterface.bind state.interfaces.get

def connectionType : String :=
  match state.activeState with
  | some iface =>
    match iface.iftype with
    | .wiFi => "wifi"
    | .ethernet => "ethernet"
    | .bluetooth => "bluetooth"
    | _ => "none"
  | none => "none"

def isMetered : Bool :=
  match state.activeState with
  | some iface => iface.iftype = .wiFi || iface.iftype = .bluetooth
  | none => true

/-- What `publish_state` attaches. -/
def payload : Value := record [
  ("connected", .bool state.connected),
  ("active_interface", Serde.toValue state.activeInterface),
  ("connection_type", .string state.connectionType),
  ("metered", .bool state.isMetered),
  ("internet_available", .bool state.internetAvailable),
  ("interfaces", .array (state.values.map (·.toJson)))]

theorem canonical_payload : Canonical state.payload := by
  refine canonical_record ?_ (by simp)
  simp only [List.forall_mem_cons]
  exact ⟨.bool _, canonical_optionString _, .string _, .bool _, .bool _,
    .array (List.forall_mem_map.mpr fun iface _ => iface.canonical_toJson), List.forall_mem_nil _⟩

/-- `publish_state`. -/
def publishState (formats : Formats) (stamp : Stamp) : Option Message :=
  statusMessage formats stamp "network.status" "netmd" state.payload

end NetworkState

end Netmd
