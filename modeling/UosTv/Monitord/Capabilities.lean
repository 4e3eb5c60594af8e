import UosTv.Rust.Collections
import Mathlib.Data.Finset.Basic
import Mathlib.Data.Finset.Range
import Mathlib.Data.Nat.Bitwise

/-!
The capabilities with which a service is started (`sec.rs`).

Between fork and `execve` the bounding set is cut down to the capabilities of the manifest, the
securebits are set, and new privileges are ruled out. The word of securebits has the bit
`SECBIT_NOROOT`, under which `execve` does not make the bounding set the permitted set of a root
process: a service gets what is ambient, and the list of the manifest makes no difference
(`service_capabilities_iff`).

The calls and `execve` are those of Linux, for a process whose capabilities are numbers up to `last`.
-/

namespace Monitord

open Rust

/-- The capability `SETPCAP`, which is needed to change the bounding set and the securebits. -/
def setpcap : Nat := 8

/-- The credentials of a process, as far as `execve` and the calls of `sec.rs` read them. -/
structure Creds where
  isRoot : Bool
  bounding : Finset Nat
  inheritable : Finset Nat
  permitted : Finset Nat
  effective : Finset Nat
  ambient : Finset Nat
  securebits : Nat
  noNewPrivs : Bool
  ambient_permitted : ambient ⊆ permitted
  ambient_inheritable : ambient ⊆ inheritable

namespace Creds

/-! ### Linux -/

def withBounding (bounding : Finset Nat) (c : Creds) : Creds := { c with bounding }

/-- `prctl(PR_CAPBSET_DROP, cap)`. A number beyond the last capability is `EINVAL`. -/
def dropCap (last cap : Nat) (c : Creds) : Creds :=
  if cap ≤ last ∧ setpcap ∈ c.effective then c.withBounding (c.bounding.erase cap) else c

/-- The odd bits of the securebits lock the bits below them. -/
def locks : Nat := 0xAA

/-- Whether a word of securebits may be set: it leaves what is locked as it is. -/
def MaySet (bits : Nat) (c : Creds) : Prop :=
  setpcap ∈ c.effective ∧ ((c.securebits &&& locks) >>> 1) &&& (c.securebits ^^^ bits) = 0 ∧
    (c.securebits &&& locks) &&& bits = c.securebits &&& locks

instance (bits : Nat) (c : Creds) : Decidable (c.MaySet bits) :=
  inferInstanceAs (Decidable (_ ∧ _ ∧ _))

/-- `prctl(PR_SET_SECUREBITS, bits)`. -/
def setSecurebits (bits : Nat) (c : Creds) : Creds :=
  if c.MaySet bits then { c with securebits := bits } else c

/-- `prctl(PR_SET_NO_NEW_PRIVS, 1)`. -/
def setNoNewPrivs (c : Creds) : Creds := { c with noNewPrivs := true }

variable (c : Creds)

/-- Whether `execve` treats the process as root: `SECBIT_NOROOT` is not set. -/
def rootAtExec : Bool := c.isRoot && !c.securebits.testBit 0

/-- The permitted set after `execve` of a binary without file capabilities. Root has the bounding
set and what is inheritable; without new privileges nothing is gained. -/
def execPermitted : Finset Nat :=
  let caps := if c.rootAtExec then c.inheritable ∪ c.bounding else c.ambient
  if c.noNewPrivs then caps ∩ c.permitted else caps

/-- The effective set after `execve`. -/
def execEffective : Finset Nat := if c.rootAtExec then c.execPermitted else c.ambient

/-- Root with all capabilities and nothing locked, as processes are started at boot. -/
structure Privileged (last : Nat) : Prop where
  root : c.isRoot = true
  permitted : c.permitted = Finset.range (last + 1)
  effective : c.effective = Finset.range (last + 1)
  bounding : c.bounding = Finset.range (last + 1)
  unlocked : c.securebits &&& locks = 0
  known : setpcap ≤ last

end Creds

/-! ### `sec.rs` -/

/-- `CAP_NAME_MAP`. -/
def capNameMap : HashMap String Nat := .collect [
  ("net_admin", 12), ("net_raw", 13), ("net_bind_service", 10), ("sys_admin", 21),
  ("sys_rawio", 17), ("sys_ptrace", 19), ("sys_nice", 23), ("sys_time", 25), ("sys_boot", 27),
  ("sys_module", 16), ("syslog", 34), ("dac_override", 1), ("dac_read_search", 2), ("fowner", 3),
  ("fsetid", 4), ("kill", 5), ("setgid", 6), ("setuid", 7), ("setpcap", 8),
  ("linux_immutable", 9), ("net_broadcast", 11), ("ipc_lock", 14), ("ipc_owner", 15),
  ("sys_tty_config", 26), ("sys_resource", 24), ("lease", 28), ("audit_write", 29),
  ("audit_control", 30), ("setfcap", 31), ("mac_override", 32), ("mac_admin", 33),
  ("sys_chroot", 18), ("wake_alarm", 35), ("block_suspend", 36), ("audit_read", 37),
  ("perfmon", 38), ("bpf", 39), ("checkpoint_restore", 40)]

/-- `CAP_LAST`. -/
def capLast : Nat := 40

def resolveCap (name : String) : Option Nat := capNameMap.get name

/-- The numbers of the capabilities to keep. -/
def keepIndices (keep : List String) : Finset Nat := (keep.filterMap resolveCap).toFinset

/-- The loop over the capabilities. -/
def dropOthers (last : Nat) (keep : Finset Nat) (caps : List Nat) (c : Creds) : Creds :=
  caps.foldl (fun c cap => if cap ∉ keep then c.dropCap last cap else c) c

/-- The word of securebits. -/
def securebitsWord : Nat := (1 <<< 0) ||| (1 <<< 1) ||| (1 <<< 2)

/-- `apply_capability_bounds`. -/
def applyCapabilityBounds (last : Nat) (keepCaps : List String) (c : Creds) : Creds :=
  ((dropOthers last (keepIndices keepCaps) (List.range (capLast + 1)) c).setSecurebits
    securebitsWord).setNoNewPrivs

/-! ### What a service gets -/

section Start

variable {last : Nat} {keep : Finset Nat} {keepCaps caps : List String} {c : Creds}

theorem dropCap_eq {cap : Nat} (able : setpcap ∈ c.effective) : c.dropCap last cap =
    c.withBounding (c.bounding.filter fun other => other = cap → last < cap) := by
  unfold Creds.dropCap
  by_cases known : cap ≤ last
  · rw [if_pos ⟨known, able⟩]
    congr 1
    ext other
    rw [Finset.mem_erase, Finset.mem_filter, and_comm]
    refine and_congr_right fun _ => ⟨fun other same => absurd same other, fun beyond same => ?_⟩
    exact absurd (beyond same) (Nat.not_lt.mpr known)
  · rw [if_neg fun may => known may.1, Finset.filter_true_of_mem]
    · rfl
    · intro other mem here
      exact Nat.lt_of_not_le known

/-- The loop drops from the bounding set what is not kept, and changes nothing else. -/
theorem dropOthers_eq {caps : List Nat} (able : setpcap ∈ c.effective) :
    dropOthers last keep caps c =
      c.withBounding (c.bounding.filter fun cap => cap ∈ caps → cap ∈ keep ∨ last < cap) := by
  induction caps generalizing c with
  | nil => simp [dropOthers, Creds.withBounding]
  | cons cap caps ih =>
    have rest : dropOthers last keep (cap :: caps) c =
        dropOthers last keep caps (if cap ∉ keep then c.dropCap last cap else c) := rfl
    rw [rest]
    by_cases kept : cap ∈ keep
    · rw [if_neg (not_not.mpr kept), ih able]
      congr 1
      ext other
      simp only [Finset.mem_filter, List.mem_cons]
      refine and_congr_right fun _ => ⟨?_, fun all mem => all (.inr mem)⟩
      rintro later (rfl | mem)
      · exact .inl kept
      · exact later mem
    · have able' : setpcap ∈ (c.withBounding (c.bounding.filter fun other =>
          other = cap → last < cap)).effective := able
      rw [if_pos kept, dropCap_eq able, ih able']
      change c.withBounding _ = c.withBounding _
      congr 1
      ext other
      simp only [Creds.withBounding, Finset.mem_filter, List.mem_cons, and_assoc]
      refine and_congr_right fun _ => ⟨?_, fun all => ⟨?_, fun mem => all (.inr mem)⟩⟩
      · rintro ⟨here, later⟩ (rfl | mem)
        · exact .inr (here rfl)
        · exact later mem
      · rintro rfl
        exact (all (.inl rfl)).resolve_left kept

/-- The credentials of a service just before `execve`. -/
def boundCreds (last : Nat) (keepCaps : List String) (c : Creds) : Creds :=
  { c.withBounding (c.bounding.filter fun cap =>
      cap ∈ List.range (capLast + 1) → cap ∈ keepIndices keepCaps ∨ last < cap) with
    securebits := securebitsWord
    noNewPrivs := true }

theorem able_of_privileged (privileged : c.Privileged last) : setpcap ∈ c.effective := by
  rw [privileged.effective, Finset.mem_range]
  exact Nat.lt_succ_of_le privileged.known

theorem apply_eq (privileged : c.Privileged last) :
    applyCapabilityBounds last keepCaps c = boundCreds last keepCaps c := by
  have able := able_of_privileged privileged
  rw [applyCapabilityBounds, dropOthers_eq able, Creds.setSecurebits, if_pos]
  · rfl
  · refine ⟨able, ?_, ?_⟩
    · change ((c.securebits &&& Creds.locks) >>> 1) &&& _ = 0
      rw [privileged.unlocked]
      exact Nat.zero_and _
    · change (c.securebits &&& Creds.locks) &&& _ = c.securebits &&& Creds.locks
      rw [privileged.unlocked]
      exact Nat.zero_and _

theorem rootAtExec_bound : (boundCreds last keepCaps c).rootAtExec = false := by
  have noRoot : securebitsWord.testBit 0 = true := rfl
  simp [Creds.rootAtExec, boundCreds, noRoot]

/-- Whatever is kept, a service has what was ambient. -/
theorem execPermitted_bound : (boundCreds last keepCaps c).execPermitted = c.ambient := by
  rw [Creds.execPermitted, rootAtExec_bound]
  exact Finset.inter_eq_left.mpr c.ambient_permitted

theorem execEffective_bound : (boundCreds last keepCaps c).execEffective = c.ambient := by
  rw [Creds.execEffective, rootAtExec_bound]
  rfl

end Start

/-- The capabilities that are named and that the table knows. -/
def Named (keepCaps : List String) (cap : Nat) : Prop :=
  ∃ name ∈ keepCaps, resolveCap name = some cap

theorem mem_keepIndices {keepCaps : List String} {cap : Nat} :
    cap ∈ keepIndices keepCaps ↔ Named keepCaps cap := by
  simp [keepIndices, Named]

/-- The bounding set itself is cut down to what is named, and to what the loop does not reach. -/
theorem mem_bounding_apply (last : Nat) (keepCaps : List String) (c : Creds)
    (privileged : c.Privileged last) (cap : Nat) :
    cap ∈ (applyCapabilityBounds last keepCaps c).bounding ↔
      cap ≤ last ∧ (Named keepCaps cap ∨ capLast < cap) := by
  rw [apply_eq privileged, boundCreds, Creds.withBounding, Finset.mem_filter, privileged.bounding,
    Finset.mem_range, Nat.lt_succ_iff, mem_keepIndices, List.mem_range, Nat.lt_succ_iff]
  refine and_congr_right fun known => ?_
  rw [or_iff_left (Nat.not_lt.mpr known), ← Nat.not_lt, ← or_iff_not_imp_left, or_comm]

/-- The permitted and the effective set after `execve` are just the capabilities that are named. -/
def GetsNamed (keepCaps : List String) (c : Creds) : Prop :=
  (∀ cap, cap ∈ c.execPermitted ↔ Named keepCaps cap) ∧
    ∀ cap, cap ∈ c.execEffective ↔ Named keepCaps cap

/-- **A service gets just the capabilities that its manifest names iff** these are what is ambient
in monitord. -/
theorem service_capabilities_iff (last : Nat) (keepCaps : List String) (c : Creds)
    (privileged : c.Privileged last) :
    GetsNamed keepCaps (applyCapabilityBounds last keepCaps c) ↔
      ∀ cap, cap ∈ c.ambient ↔ Named keepCaps cap := by
  rw [GetsNamed, apply_eq privileged, execPermitted_bound, execEffective_bound, and_self]

/-! ### Examples -/

/-- Monitord as it is started at boot. -/
def bootCreds : Creds where
  isRoot := true
  bounding := .range (capLast + 1)
  inheritable := ∅
  permitted := .range (capLast + 1)
  effective := .range (capLast + 1)
  ambient := ∅
  securebits := 0
  noNewPrivs := false
  ambient_permitted := Finset.empty_subset _
  ambient_inheritable := Finset.empty_subset _

theorem privileged_boot : bootCreds.Privileged capLast :=
  ⟨rfl, rfl, rfl, rfl, rfl, by decide⟩

/-- A name that the table does not know keeps nothing, and the service gets nothing. -/
theorem unknown_keeps_nothing :
    bootCreds.Privileged capLast ∧
      GetsNamed ["mknod"] (applyCapabilityBounds capLast ["mknod"] bootCreds) := by
  refine ⟨privileged_boot, (service_capabilities_iff _ _ _ privileged_boot).mpr fun cap => ?_⟩
  have unknown : resolveCap "mknod" = none := rfl
  simp [Named, unknown, bootCreds]

/-- `net_admin` is kept for netmd, which does not get it. -/
theorem net_admin_lost :
    Named ["net_admin"] 12 ∧
      12 ∈ (applyCapabilityBounds capLast ["net_admin"] bootCreds).bounding ∧
      12 ∉ (applyCapabilityBounds capLast ["net_admin"] bootCreds).execPermitted ∧
      12 ∉ (applyCapabilityBounds capLast ["net_admin"] bootCreds).execEffective := by
  have known : resolveCap "net_admin" = some 12 := rfl
  rw [apply_eq privileged_boot, execPermitted_bound, execEffective_bound]
  refine ⟨⟨"net_admin", List.mem_singleton.mpr rfl, known⟩, ?_, Finset.notMem_empty _,
    Finset.notMem_empty _⟩
  have kept : 12 ∈ keepIndices ["net_admin"] := by simp [keepIndices, known]
  refine Finset.mem_filter.mpr ⟨Finset.mem_range.mpr (by decide), fun _ => .inl kept⟩

end Monitord
