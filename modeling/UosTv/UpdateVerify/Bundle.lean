import UosTv.Rust.Hex
import UosTv.UpdateVerify.Version

/-!
The verifier of signed bundles (`update-verify/src/lib.rs`).

Ed25519 and serde_json are given functions: whether a key verifies a signature over bytes,
how a JSON value is written, and what metadata it is read as.
-/

namespace UpdateVerify

open Rust

structure FileEntry where
  path : String
  sha256 : String
  size : UInt64
deriving DecidableEq, Repr

/-- Metadata of a bundle. -/
structure BundleMetadata where
  version : String
  device : String
  timestamp : UInt64
  channel : String
  critical : Bool := false
  description : String := ""
  downloadUrl : Option String := none
  caibxUrl : Option String := none
  rootfsSha256 : String
  rootfsSize : UInt64
  files : List FileEntry
deriving DecidableEq, Repr

/-- The signed envelope: JSON data and a signature in hex. -/
structure SignedBundle (Value : Type) where
  data : Value
  signature : String
  publicKey : Option String := none

/-- The errors that `verify_bundle` returns. Those of the hex and JSON crates are kept as
they are; in the source an invalid signature carries the text of its cause. -/
inductive Error where
  | json (cause : String)
  | badHex (cause : FromHexError)
  | badLength
  | signatureInvalid
  | expired (timestamp maxAgeSecs : UInt64)
  | downgrade (version current : String)
  | incompatibleDevice (device : String)
deriving DecidableEq, Repr

/-- The given functions. -/
structure Primitives (Key Value : Type) where
  verifyStrict : Key → Bytes → Bytes → Bool
  toVec : Value → Except String Bytes
  fromValue : Value → Except String BundleMetadata

structure BundleVerifier (Key : Type) where
  trustedKeys : List Key
  maxAgeSecs : UInt64 := 90 * 24 * 3600
  allowedDevices : List String := []

namespace BundleVerifier

variable {Key Value : Type}

/-- The signature check: the metadata bytes, verified by a trusted key. -/
def verifySignature (v : BundleVerifier Key) (prims : Primitives Key Value)
    (signed : SignedBundle Value) : Except Error Unit := do
  let dataBytes ← (prims.toVec signed.data).mapError .json
  let sigBytes ← (hexDecode (asBytes signed.signature)).mapError .badHex
  if sigBytes.length ≠ 64 then throw .badLength
  unless v.trustedKeys.any fun key => prims.verifyStrict key dataBytes sigBytes do
    throw .signatureInvalid

/-- The checks of the device and of the version. -/
def checkMetadata (v : BundleVerifier Key) (m : BundleMetadata) (currentVersion : Option String) :
    Except Error Unit := do
  if v.allowedDevices ≠ [] ∧ m.device ∉ v.allowedDevices then
    throw (.incompatibleDevice m.device)
  match currentVersion with
  | none => pure ()
  | some current => if isDowngrade current m.version then throw (.downgrade m.version current)

/-- `verify_bundle` at the time `now`, in seconds. It panics, which is `none`, where the sum
of the last check overflows and overflows are checked. -/
def verifyBundle (v : BundleVerifier Key) (prims : Primitives Key Value) (checks : Bool)
    (now : UInt64) (signed : SignedBundle Value) (currentVersion : Option String) :
    Option (Except Error BundleMetadata) :=
  let checked := do
    v.verifySignature prims signed
    let m ← (prims.fromValue signed.data).mapError .json
    v.checkMetadata m currentVersion
    pure m
  match checked with
  | .error e => some (.error e)
  | .ok m =>
    (addU64 checks m.timestamp v.maxAgeSecs).map fun limit =>
      if limit < now then .error (.expired m.timestamp v.maxAgeSecs) else .ok m

end BundleVerifier

end UpdateVerify
