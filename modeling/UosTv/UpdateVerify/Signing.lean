import UosTv.Serde.Derive
import UosTv.Serde.JsonReader
import UosTv.UpdateVerify.Acceptance

/-!
Signing a bundle, and verifying it after transport.

The metadata is written as a JSON value, and what is signed are the bytes of this value. The
verifier writes the value it has received once more, so the signature survives a transport
that keeps the value: any other text of it, with the keys of its objects in another order and
other white space, leads to the same bytes (`verifyBundle_signBundle`).
-/

namespace UpdateVerify

open Rust SerdeJson SerdeJson.Serde

/-! ### The structures as JSON -/

instance : Serde FileEntry where
  toValue file := record
    [("path", toValue file.path), ("sha256", toValue file.sha256), ("size", toValue file.size)]
  fromValue
    | .object m => do
      some { path := ← field m "path", sha256 := ← field m "sha256", size := ← field m "size" }
    | .array [path, sha256, size] => do
      some { path := ← fromValue path, sha256 := ← fromValue sha256, size := ← fromValue size }
    | _ => none
  fromValue_toValue file := by
    simp [record, field, get_collect]

instance : Serde BundleMetadata where
  toValue m := record
    [("version", toValue m.version), ("device", toValue m.device),
      ("timestamp", toValue m.timestamp), ("channel", toValue m.channel),
      ("critical", toValue m.critical), ("description", toValue m.description),
      ("download_url", toValue m.downloadUrl), ("caibx_url", toValue m.caibxUrl),
      ("rootfs_sha256", toValue m.rootfsSha256), ("rootfs_size", toValue m.rootfsSize),
      ("files", toValue m.files)]
  fromValue
    | .object m => do
      some {
        version := ← field m "version"
        device := ← field m "device"
        timestamp := ← field m "timestamp"
        channel := ← field m "channel"
        critical := ← fieldOr false m "critical"
        description := ← fieldOr "" m "description"
        downloadUrl := ← fieldOr none m "download_url"
        caibxUrl := ← fieldOr none m "caibx_url"
        rootfsSha256 := ← field m "rootfs_sha256"
        rootfsSize := ← field m "rootfs_size"
        files := ← field m "files" }
    | .array [version, device, timestamp, channel, critical, description, downloadUrl, caibxUrl,
        rootfsSha256, rootfsSize, files] => do
      some {
        version := ← fromValue version
        device := ← fromValue device
        timestamp := ← fromValue timestamp
        channel := ← fromValue channel
        critical := ← fromValue critical
        description := ← fromValue description
        downloadUrl := ← fromValue downloadUrl
        caibxUrl := ← fromValue caibxUrl
        rootfsSha256 := ← fromValue rootfsSha256
        rootfsSize := ← fromValue rootfsSize
        files := ← fromValue files }
    | _ => none
  fromValue_toValue m := by
    simp [record, field, fieldOr, get_collect]

instance : Serde (SignedBundle Value) where
  toValue signed := record
    [("data", toValue signed.data), ("signature", toValue signed.signature),
      ("public_key", toValue signed.publicKey)]
  fromValue
    | .object m => do
      some {
        data := ← field m "data"
        signature := ← field m "signature"
        publicKey := ← fieldOr none m "public_key" }
    | .array [data, signature] => do
      some { data := ← fromValue data, signature := ← fromValue signature }
    | .array [data, signature, publicKey] => do
      some {
        data := ← fromValue data
        signature := ← fromValue signature
        publicKey := ← fromValue publicKey }
    | _ => none
  fromValue_toValue signed := by
    simp [record, field, fieldOr, get_collect]

theorem canonical_fileEntry (file : FileEntry) : Canonical (toValue file) := by
  refine canonical_record ?_ (by simp)
  simp only [List.forall_mem_cons]
  exact ⟨.string _, .string _, .posInt _, List.forall_mem_nil _⟩

theorem canonical_bundleMetadata (m : BundleMetadata) : Canonical (toValue m) := by
  refine canonical_record ?_ (by simp)
  simp only [List.forall_mem_cons]
  exact ⟨.string _, .string _, .posInt _, .string _, .bool _, .string _, canonical_optionString _,
    canonical_optionString _, .string _, .posInt _, canonical_list fun file _ => canonical_fileEntry file,
    List.forall_mem_nil _⟩

/-! ### Signing -/

/-- The given functions of Ed25519 and of serde_json. `parse` reads a JSON text, `cause` is the
text of the error about a value that a structure cannot be read from. -/
structure Given (SigningKey Key : Type) where
  sign : SigningKey → Bytes → Bytes
  verifyingKey : SigningKey → Key
  keyBytes : Key → Bytes
  verifyStrict : Key → Bytes → Bytes → Bool
  toVec : Value → Except String Bytes
  parse : String → Except String Value
  cause : Value → String

namespace Given

variable {SigningKey Key : Type} (given : Given SigningKey Key)

/-- `serde_json::from_value`. -/
def fromValueOr {α : Type} [Serde α] (v : Value) : Except String α :=
  match fromValue v with
  | some a => .ok a
  | none => .error (given.cause v)

/-- `serde_json::from_str`. -/
def fromStr {α : Type} [Serde α] (text : String) : Except String α := do
  let v ← given.parse text
  given.fromValueOr v

/-- What the verifier uses of them. -/
def primitives : Primitives Key Value where
  verifyStrict := given.verifyStrict
  toVec := given.toVec
  fromValue := given.fromValueOr

/-- `sign_bundle`. -/
def signBundle (signingKey : SigningKey) (m : BundleMetadata) :
    Except Error (SignedBundle Value) := do
  let dataJson := toValue m
  let dataBytes ← (given.toVec dataJson).mapError .json
  pure {
    data := dataJson
    signature := hexEncode (given.sign signingKey dataBytes)
    publicKey := some (hexEncode (given.keyBytes (given.verifyingKey signingKey))) }

@[simp] theorem fromValueOr_toValue {α : Type} [Serde α] (a : α) :
    given.fromValueOr (toValue a) = .ok a := by
  rw [fromValueOr, fromValue_toValue]

@[simp] theorem primitives_fromValue (v : Value) :
    given.primitives.fromValue v = given.fromValueOr v := rfl

variable {given} {signingKey : SigningKey} {m : BundleMetadata} {v : BundleVerifier Key}
  {currentVersion : Option String} {checks : Bool} {now : UInt64} {signed : SignedBundle Value}

theorem signBundle_eq_ok_iff :
    given.signBundle signingKey m = .ok signed ↔ ∃ dataBytes, given.toVec (toValue m) = .ok dataBytes ∧
      signed = {
        data := toValue m
        signature := hexEncode (given.sign signingKey dataBytes)
        publicKey := some (hexEncode (given.keyBytes (given.verifyingKey signingKey))) } := by
  simp only [signBundle, bind_eq_ok, mapError_eq_ok, pure_eq_ok]
  exact exists_congr fun _ => and_congr_right fun _ => eq_comm

/-- What is signed has a text: the one that is written of it. -/
theorem renders_signBundle (result : given.signBundle signingKey m = .ok signed) :
    Renders (.item (toValue signed)) (print (toValue signed)) := by
  obtain ⟨dataBytes, -, rfl⟩ := signBundle_eq_ok_iff.mp result
  refine (renders_print (canonical_record ?_ (by simp))).item_of_value
  simp only [List.forall_mem_cons]
  exact ⟨canonical_bundleMetadata m, .string _, canonical_optionString _, List.forall_mem_nil _⟩

/-- What is signed passes the checks before the last, if the device and the version do. -/
theorem passes_signBundle (result : given.signBundle signingKey m = .ok signed)
    (ownSignatures : ∀ bytes, (given.sign signingKey bytes).length = 64 ∧
      given.verifyStrict (given.verifyingKey signingKey) bytes (given.sign signingKey bytes) = true)
    (trusted : given.verifyingKey signingKey ∈ v.trustedKeys)
    (metadata : v.checkMetadata m currentVersion = .ok ()) :
    v.Passes given.primitives signed currentVersion m := by
  obtain ⟨dataBytes, written, rfl⟩ := signBundle_eq_ok_iff.mp result
  obtain ⟨length, verified⟩ := ownSignatures dataBytes
  obtain ⟨device, version⟩ := BundleVerifier.checkMetadata_eq_ok_iff.mp metadata
  exact {
    signature := ⟨dataBytes, _, written, hexDecode_hexEncode _, length, _, trusted, verified⟩
    parsed := by rw [primitives_fromValue, fromValueOr_toValue]
    device := device
    version := version }

/-- What is signed is verified, at once and after its JSON text has been laid out anew. -/
theorem verifyBundle_signBundle (written : ∃ bytes, given.toVec (toValue m) = .ok bytes)
    (ownSignatures : ∀ bytes, (given.sign signingKey bytes).length = 64 ∧
      given.verifyStrict (given.verifyingKey signingKey) bytes (given.sign signingKey bytes) = true)
    (parsed : ∀ signed, given.signBundle signingKey m = .ok signed →
      ∀ text : String, Renders (.item (toValue signed)) text.toList →
        given.parse text = .ok (toValue signed))
    (trusted : given.verifyingKey signingKey ∈ v.trustedKeys)
    (metadata : v.checkMetadata m currentVersion = .ok ())
    (inTime : ∃ limit, addU64 checks m.timestamp v.maxAgeSecs = some limit ∧ ¬ limit < now) :
    ∃ signed, given.signBundle signingKey m = .ok signed ∧
      v.verifyBundle given.primitives checks now signed currentVersion = some (.ok m) ∧
      ∀ text : String, Renders (.item (toValue signed)) text.toList →
        ∃ received, given.fromStr text = .ok received ∧
          v.verifyBundle given.primitives checks now received currentVersion = some (.ok m) := by
  obtain ⟨dataBytes, written⟩ := written
  obtain ⟨limit, sum, young⟩ := inTime
  obtain ⟨signed, result⟩ : ∃ signed, given.signBundle signingKey m = .ok signed :=
    ⟨_, signBundle_eq_ok_iff.mpr ⟨dataBytes, written, rfl⟩⟩
  have passes := passes_signBundle result ownSignatures trusted metadata
  have verified : v.verifyBundle given.primitives checks now signed currentVersion =
      some (.ok m) := by
    rw [BundleVerifier.verifyBundle_of_passes passes, sum, Option.map_some, if_neg young]
  refine ⟨signed, result, verified, fun text renders => ⟨signed, ?_, verified⟩⟩
  have value := parsed signed result text renders
  simp [fromStr, value]

end Given

/-- Functions that stand for the given ones: a signature is the message itself, cut or padded. -/
def sampleGiven : Given Unit Unit where
  sign _ bytes := (bytes ++ List.replicate 64 0).take 64
  verifyingKey key := key
  keyBytes _ := List.replicate 32 0
  verifyStrict _ bytes sigBytes := sigBytes = (bytes ++ List.replicate 64 0).take 64
  toVec v := .ok (asBytes (String.ofList (print v)))
  parse text := match readText text.toList with
    | some v => .ok v
    | none => .error "expected value"
  cause _ := "invalid type"

def sampleVerifier : BundleVerifier Unit where
  trustedKeys := [()]
  allowedDevices := ["qemu-virt"]

theorem verifyBundle_signBundle_sample :
    ∃ signed, sampleGiven.signBundle () sampleMetadata = .ok signed ∧
      sampleVerifier.verifyBundle sampleGiven.primitives true 1700000001 signed (some "1.1.0") =
        some (.ok sampleMetadata) ∧
      ∀ text : String, Renders (.item (toValue signed)) text.toList →
        ∃ received, sampleGiven.fromStr text = .ok received ∧
          sampleVerifier.verifyBundle sampleGiven.primitives true 1700000001 received
            (some "1.1.0") = some (.ok sampleMetadata) := by
  apply Given.verifyBundle_signBundle
  · exact ⟨_, rfl⟩
  · intro bytes
    exact ⟨by simp [sampleGiven], by simp [sampleGiven]⟩
  · intro signed _ text renders
    simp [sampleGiven, readText_of_renders renders]
  · exact List.mem_cons_self
  · rfl
  · exact ⟨_, rfl, by decide⟩

end UpdateVerify
