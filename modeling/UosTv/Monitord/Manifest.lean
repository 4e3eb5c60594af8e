import Mathlib.Tactic.TypeStar

/-!
Service manifests (`manifest.rs`): what the graph and the supervisor read of them.
-/

namespace Monitord

/-- `RestartPolicy`. -/
inductive RestartPolicy where
  | always
  | onFailure
  | never
deriving DecidableEq, Repr

/-- `ServiceManifest`. `capsKeep` is `caps.keep`. -/
structure ServiceManifest where
  name : String
  binary : String
  args : List String
  env : List String
  dependencies : List String
  restart : RestartPolicy
  restartDelayMs : Nat
  maxCrashCount : Nat
  crashWindowSecs : Nat
  critical : Bool
  startupTimeoutSecs : Nat
  healthCheck : Option String
  capsKeep : List String
deriving DecidableEq, Repr

/-- A manifest that names only a service and its binary: the serde defaults. -/
def ServiceManifest.default (name binary : String) : ServiceManifest where
  name
  binary
  args := []
  env := []
  dependencies := []
  restart := .onFailure
  restartDelayMs := 1000
  maxCrashCount := 3
  crashWindowSecs := 30
  critical := false
  startupTimeoutSecs := 15
  healthCheck := none
  capsKeep := []

end Monitord
