import UosTv.Rust.Result
import UosTv.UpdateVerify.Bundle

/-!
What `verify_bundle` accepts.

All checks but the last are as they should be (`Passes`). The last one adds the maximal age
to the timestamp in a `u64`, so a bundle that is valid forever is refused or makes the
verifier panic, unless the sum fits or, where it wraps, the time is small
(`verifyBundle_accepts_iff`).
-/

namespace UpdateVerify

open Rust

namespace BundleVerifier

variable {Key Value : Type}

/-- The metadata passes the checks before the last: the signature is 64 bytes in hex and a
trusted key verifies it over the serialized data, the data is the metadata, the device is
allowed and the version is no downgrade. -/
structure Passes (v : BundleVerifier Key) (prims : Primitives Key Value)
    (signed : SignedBundle Value) (currentVersion : Option String) (m : BundleMetadata) : Prop where
  signature : ∃ dataBytes sigBytes, prims.toVec signed.data = .ok dataBytes ∧
    hexDecode (asBytes signed.signature) = .ok sigBytes ∧ sigBytes.length = 64 ∧
      ∃ key ∈ v.trustedKeys, prims.verifyStrict key dataBytes sigBytes = true
  parsed : prims.fromValue signed.data = .ok m
  device : v.allowedDevices = [] ∨ m.device ∈ v.allowedDevices
  version : ∀ current, currentVersion = some current → isDowngrade current m.version = false

/-- The exact time at which metadata expires. -/
def expiry (v : BundleVerifier Key) (m : BundleMetadata) : Nat :=
  m.timestamp.toNat + v.maxAgeSecs.toNat

variable {v : BundleVerifier Key} {prims : Primitives Key Value} {signed : SignedBundle Value}
  {m : BundleMetadata} {checks : Bool} {now : UInt64} {currentVersion : Option String}

/-! ### The checks before the last -/

theorem verifySignature_eq_ok_iff :
    v.verifySignature prims signed = .ok () ↔
      ∃ dataBytes sigBytes, prims.toVec signed.data = .ok dataBytes ∧
        hexDecode (asBytes signed.signature) = .ok sigBytes ∧ sigBytes.length = 64 ∧
          ∃ key ∈ v.trustedKeys, prims.verifyStrict key dataBytes sigBytes = true := by
  unfold verifySignature
  simp [ite_eq_iff, exists_and_left]

theorem checkMetadata_eq_ok_iff :
    v.checkMetadata m currentVersion = .ok () ↔
      (v.allowedDevices = [] ∨ m.device ∈ v.allowedDevices) ∧
        ∀ current, currentVersion = some current → isDowngrade current m.version = false := by
  unfold checkMetadata
  cases currentVersion with
  | none => simp [ite_eq_iff, or_iff_not_imp_left]
  | some current => simp [ite_eq_iff, or_iff_not_imp_left]

/-- The metadata that passes the checks before the last, if there is any. -/
def checked (v : BundleVerifier Key) (prims : Primitives Key Value) (signed : SignedBundle Value)
    (currentVersion : Option String) : Except Error BundleMetadata := do
  v.verifySignature prims signed
  let m ← (prims.fromValue signed.data).mapError .json
  v.checkMetadata m currentVersion
  pure m

theorem checked_eq_ok_iff :
    v.checked prims signed currentVersion = .ok m ↔ v.Passes prims signed currentVersion m := by
  simp only [checked, bind_eq_ok, mapError_eq_ok, pure_eq_ok]
  constructor
  · rintro ⟨_, signature, m', parsed, _, metadata, rfl⟩
    obtain ⟨device, version⟩ := checkMetadata_eq_ok_iff.mp metadata
    exact ⟨verifySignature_eq_ok_iff.mp signature, parsed, device, version⟩
  · rintro ⟨signature, parsed, device, version⟩
    have metadata := checkMetadata_eq_ok_iff.mpr ⟨device, version⟩
    exact ⟨(), verifySignature_eq_ok_iff.mpr signature, m, parsed, (), metadata, rfl⟩

/-- At most one metadata passes. -/
theorem Passes.unique {m' : BundleMetadata} (passes : v.Passes prims signed currentVersion m)
    (passes' : v.Passes prims signed currentVersion m') : m = m' :=
  Except.ok.inj (passes.parsed.symm.trans passes'.parsed)

/-! ### The whole verifier -/

theorem verifyBundle_of_passes (passes : v.Passes prims signed currentVersion m) :
    v.verifyBundle prims checks now signed currentVersion =
      (addU64 checks m.timestamp v.maxAgeSecs).map fun limit =>
        if limit < now then .error (.expired m.timestamp v.maxAgeSecs) else .ok m := by
  have passed : v.checked prims signed currentVersion = .ok m := checked_eq_ok_iff.mpr passes
  unfold checked at passed
  unfold verifyBundle
  rw [passed]

theorem verifyBundle_of_not_passes (fails : ∀ m, ¬ v.Passes prims signed currentVersion m) :
    ∃ e, v.verifyBundle prims checks now signed currentVersion = some (.error e) := by
  cases result : v.checked prims signed currentVersion with
  | error e =>
    unfold checked at result
    unfold verifyBundle
    exact ⟨e, by rw [result]⟩
  | ok m => exact absurd (checked_eq_ok_iff.mp result) (fails m)

/-- What is accepted passes the checks before the last. -/
theorem passes_of_verifyBundle
    (accepted : v.verifyBundle prims checks now signed currentVersion = some (.ok m)) :
    v.Passes prims signed currentVersion m := by
  by_cases some_passes : ∃ m', v.Passes prims signed currentVersion m'
  · obtain ⟨m', passes⟩ := some_passes
    rw [verifyBundle_of_passes passes] at accepted
    obtain ⟨limit, -, inTime⟩ := Option.map_eq_some_iff.mp accepted
    split at inTime
    · cases inTime
    · cases inTime
      exact passes
  · obtain ⟨e, refused⟩ := verifyBundle_of_not_passes (not_exists.mp some_passes)
    cases refused.symm.trans accepted

/-- What is accepted is no downgrade. -/
theorem not_isDowngrade_of_verifyBundle {current : String}
    (accepted : v.verifyBundle prims checks now signed (some current) = some (.ok m)) :
    isDowngrade current m.version = false :=
  (passes_of_verifyBundle accepted).version current rfl

/-- The verifier does not panic, and returns exactly the metadata that passes all checks, the
last of them in exact arithmetic. -/
def AcceptsExactly (v : BundleVerifier Key) (prims : Primitives Key Value) (checks : Bool)
    (now : UInt64) (signed : SignedBundle Value) (currentVersion : Option String) : Prop :=
  ∃ result, v.verifyBundle prims checks now signed currentVersion = some result ∧
    ∀ m, result = .ok m ↔
      v.Passes prims signed currentVersion m ∧ now.toNat ≤ v.expiry m

theorem Passes.acceptsExactly_iff (passes : v.Passes prims signed currentVersion m) :
    v.AcceptsExactly prims checks now signed currentVersion ↔
      ∃ limit, addU64 checks m.timestamp v.maxAgeSecs = some limit ∧
        (¬ limit < now ↔ now.toNat ≤ v.expiry m) := by
  unfold AcceptsExactly
  rw [verifyBundle_of_passes passes]
  constructor
  · rintro ⟨result, returned, exact_result⟩
    obtain ⟨limit, sum, rfl⟩ := Option.map_eq_some_iff.mp returned
    refine ⟨limit, sum, ?_⟩
    have here := exact_result m
    rw [and_iff_right passes] at here
    rw [← here]
    split <;> simp [*]
  · rintro ⟨limit, sum, exact_limit⟩
    refine ⟨_, Option.map_eq_some_iff.mpr ⟨limit, sum, rfl⟩, fun m' => ?_⟩
    constructor
    · intro accepted
      split at accepted
      · cases accepted
      · cases accepted
        exact ⟨passes, exact_limit.mp ‹_›⟩
    · rintro ⟨passes', inTime⟩
      obtain rfl := passes.unique passes'
      exact if_neg (exact_limit.mpr inTime)

/-- The verifier is exact iff, for metadata that passes the checks before the last, the sum
of the last check fits, or wraps to a time that has not come. -/
theorem verifyBundle_accepts_iff :
    v.AcceptsExactly prims checks now signed currentVersion ↔
      ∀ m, v.Passes prims signed currentVersion m →
        v.expiry m < 2 ^ 64 ∨ checks = false ∧ now.toNat + 2 ^ 64 ≤ v.expiry m := by
  by_cases some_passes : ∃ m, v.Passes prims signed currentVersion m
  · obtain ⟨m, passes⟩ := some_passes
    have only : (∀ m', v.Passes prims signed currentVersion m' →
        v.expiry m' < 2 ^ 64 ∨ checks = false ∧ now.toNat + 2 ^ 64 ≤ v.expiry m') ↔
          (v.expiry m < 2 ^ 64 ∨ checks = false ∧ now.toNat + 2 ^ 64 ≤ v.expiry m) :=
      ⟨fun all => all m passes, fun here m' passes' => passes.unique passes' ▸ here⟩
    rw [only, passes.acceptsExactly_iff]
    rcases Nat.lt_or_ge (v.expiry m) (2 ^ 64) with fits | overflows
    · apply iff_of_true _ (.inl fits)
      refine ⟨_, addU64_of_lt fits, ?_⟩
      rw [UInt64.lt_iff_toNat_lt, toNat_add_of_lt fits, Nat.not_lt]
      exact Iff.rfl
    · have sum := toNat_add_of_le overflows
      have soon := now.toNat_lt
      cases checks with
      | true =>
        rw [(addU64_of_le overflows).1]
        apply iff_of_false
        · rintro ⟨limit, sum, -⟩
          cases sum
        · rintro (fits | ⟨release, -⟩)
          · omega
          · cases release
      | false =>
        rw [(addU64_of_le overflows).2]
        simp only [Option.some.injEq, exists_eq_left', UInt64.lt_iff_toNat_lt, true_and]
        unfold expiry at *
        omega
  · obtain ⟨e, refused⟩ := verifyBundle_of_not_passes (not_exists.mp some_passes)
    have none_passes := not_exists.mp some_passes
    apply iff_of_true
    · refine ⟨.error e, refused, fun m => ⟨by rintro ⟨⟩, ?_⟩⟩
      rintro ⟨passes, -⟩
      exact absurd passes (none_passes m)
    · intro m passes
      exact absurd passes (none_passes m)

end BundleVerifier

/-! ### A bundle that is valid forever -/

/-- Metadata from 14 November 2023. -/
def sampleMetadata : BundleMetadata where
  version := "2.0.0"
  device := "qemu-virt"
  timestamp := 1700000000
  channel := "stable"
  rootfsSha256 := ""
  rootfsSize := 0
  files := []

def samplePrimitives : Primitives Unit Unit where
  verifyStrict _ _ sigBytes := sigBytes.all (· = 0x5a)
  toVec _ := .ok (asBytes "{}")
  fromValue _ := .ok sampleMetadata

def sampleBundle : SignedBundle Unit where
  data := ()
  signature := hexEncode (List.replicate 64 0x5a)

/-- A verifier that accepts bundles of any age. -/
def ageless : BundleVerifier Unit where
  trustedKeys := [()]
  maxAgeSecs := 18446744073709551615

theorem passes_sampleBundle : ageless.Passes samplePrimitives sampleBundle none sampleMetadata where
  signature := ⟨asBytes "{}", List.replicate 64 0x5a, rfl, hexDecode_hexEncode _, rfl, (),
    List.mem_cons_self, by decide⟩
  parsed := rfl
  device := .inl rfl
  version := by rintro _ ⟨⟩

/-- A second after it was made the bundle has expired, or the verifier panics. -/
theorem sampleBundle_refused :
    ageless.verifyBundle samplePrimitives false 1700000001 sampleBundle none =
        some (.error (.expired 1700000000 18446744073709551615)) ∧
      ageless.verifyBundle samplePrimitives true 1700000001 sampleBundle none = none ∧
      ¬ ageless.AcceptsExactly samplePrimitives false 1700000001 sampleBundle none ∧
      ¬ ageless.AcceptsExactly samplePrimitives true 1700000001 sampleBundle none := by
  rw [passes_sampleBundle.acceptsExactly_iff, passes_sampleBundle.acceptsExactly_iff,
    BundleVerifier.verifyBundle_of_passes passes_sampleBundle,
    BundleVerifier.verifyBundle_of_passes passes_sampleBundle]
  refine ⟨rfl, rfl, ?_, ?_⟩
  · rintro ⟨limit, sum, exact_limit⟩
    cases sum
    exact absurd (exact_limit.mpr (by decide)) (by decide)
  · rintro ⟨limit, sum, -⟩
    cases sum

end UpdateVerify
