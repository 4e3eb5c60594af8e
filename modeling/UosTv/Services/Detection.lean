import UosTv.Services.ActiveInterface
import UosTv.Rust.Text

/-!
How `netmd` finds the interfaces, and which changes it notices (`detect_interfaces_linux`).

A detection puts every interface of a snapshot of sysfs into the table and removes the others. It
returns whether anything has changed, by a comparison of its own: whether an interface is connected
or up, its address, the set of interfaces and the internet flag. The type of an interface is not
compared, though it is published and decides whether the connection is metered.
-/

namespace Netmd

open Rust SerdeJson

/-- What `/sys/class/net` shows at one time. -/
structure Sysfs where
  /-- The names in the directory, if it can be read. -/
  names : Option (List String)
  /-- Whether an interface has the directory `wireless`. -/
  wireless : String → Bool := fun _ => false
  /-- Whether an interface has `phy80211`. -/
  phy80211 : String → Bool := fun _ => false
  /-- What is read from a file of an interface. -/
  read : String → String → Option String

namespace Sysfs

variable (sys : Sysfs) (name : String)

/-- `detect_iftype_linux`. An interface is taken for Ethernet wherever its link `device` leads. -/
def detectIftype : InterfaceType :=
  if name = "lo" then .loopback
  else if sys.wireless name || sys.phy80211 name then .wiFi
  else .ethernet

/-- `read_sysfs_flag`. -/
def readFlag (file expected : String) : Bool :=
  match sys.read name file with
  | some content => trim content = expected
  | none => false

/-- `detect_ip_linux`. What is in `fib_trie` is not used. -/
def detectIp : Option String :=
  if sys.readFlag name "operstate" "up" then
    if name = "lo" then some "127.0.0.1" else some "0.0.0.0"
  else none

/-- The interface as it is detected. -/
def iface : InterfaceState where
  name := name
  iftype := sys.detectIftype name
  up := sys.readFlag name "operstate" "up"
  connected := sys.readFlag name "carrier" "1"
  ipAddress := sys.detectIp name
  ssid := none
  signalStrength := none

/-- The names that the loop does not skip. -/
def interfaces : List String := (sys.names.getD []).filter fun name => name ≠ "." ∧ name ≠ ".."

end Sysfs

/-! ### Detection -/

/-- The values that the loop works on. -/
structure Scan where
  changed : Bool
  seen : HashSet String
  table : HashMap String InterfaceState

/-- Whether an interface is not the one of the table, as far as it is compared. -/
def differs (old : Option InterfaceState) (new : InterfaceState) : Bool :=
  match old with
  | some old => old.connected ≠ new.connected || old.ipAddress ≠ new.ipAddress || old.up ≠ new.up
  | none => true

/-- What the loop over the directory does for an interface. -/
def Sysfs.visit (sys : Sysfs) (scan : Scan) (name : String) : Scan where
  changed := if differs (scan.table.get name) (sys.iface name) then true else scan.changed
  seen := scan.seen.insert name
  table := scan.table.insertInPlace name (sys.iface name)

/-- The body of the loop over the directory. -/
def Sysfs.scanEntry (sys : Sysfs) (scan : Scan) (name : String) : Scan :=
  if name = "." ∨ name = ".." then scan else sys.visit scan name

/-- The body of the loop over the interfaces that are gone. -/
def Scan.drop (scan : Scan) (name : String) : Scan :=
  { scan with changed := true, table := scan.table.remove name }

namespace NetworkState

variable (state : NetworkState) (sys : Sysfs)

/-- The loop over the directory. -/
def scan : Scan := (sys.names.getD []).foldl sys.scanEntry ⟨false, .new, state.interfaces⟩

/-- The two loops. -/
def prune : Scan :=
  ((state.scan sys).table.keys.filter (· ∉ (state.scan sys).seen)).foldl Scan.drop (state.scan sys)

/-- The state behind the two loops. -/
def pruned : NetworkState := { state with interfaces := (state.prune sys).table }

/-- `detect_interfaces_linux`: whether anything has changed, and the state. -/
def detectInterfaces : Bool × NetworkState :=
  if state.internetAvailable ≠ (state.pruned sys).connected then
    (true, { state.pruned sys with internetAvailable := (state.pruned sys).connected })
  else ((state.prune sys).changed, state.pruned sys)

end NetworkState

/-! ### The loops -/

section Loops

variable {sys : Sysfs} {scan : Scan} {names : List String} {name : String}

theorem scan_eq (state : NetworkState) (sys : Sysfs) :
    state.scan sys = sys.interfaces.foldl sys.visit ⟨false, .new, state.interfaces⟩ := by
  rw [NetworkState.scan, Sysfs.interfaces, List.foldl_filter]
  refine congrArg (fun f => List.foldl f _ _) (funext₂ fun scan name => ?_)
  by_cases skipped : name = "." ∨ name = ".."
  · rw [Sysfs.scanEntry, if_pos skipped, if_neg]
    simpa using fun here => skipped.resolve_left here
  · rw [Sysfs.scanEntry, if_neg skipped, if_pos]
    simpa using skipped

theorem get_visit : (sys.visit scan name').table.get name =
    if name = name' then some (sys.iface name') else scan.table.get name :=
  HashMap.get_insertInPlace _ _ _ _

theorem get_visits : (names.foldl sys.visit scan).table.get name =
    if name ∈ names then some (sys.iface name) else scan.table.get name := by
  induction names generalizing scan with
  | nil => simp
  | cons first names ih =>
    rw [List.foldl_cons, ih, get_visit]
    by_cases later : name ∈ names
    · simp [later]
    · by_cases here : name = first <;> simp [later, here]

theorem mem_seen_visits :
    name ∈ (names.foldl sys.visit scan).seen ↔ name ∈ names ∨ name ∈ scan.seen := by
  induction names generalizing scan with
  | nil => simp
  | cons first names ih =>
    rw [List.foldl_cons, ih, List.mem_cons]
    change _ ∨ name ∈ scan.seen.insert first ↔ _
    rw [HashSet.mem_insert, or_left_comm, or_assoc]

theorem differs_eq_false {old new : InterfaceState} : differs (some old) new = false ↔
    old.connected = new.connected ∧ old.ipAddress = new.ipAddress ∧ old.up = new.up := by
  simp [differs, and_assoc]

theorem differs_self (iface : InterfaceState) : differs (some iface) iface = false := by
  simp [differs]

/-- The loop notices an interface that differs from the table as it was before. An interface that
is listed twice is compared with itself. -/
theorem changed_visits : (names.foldl sys.visit scan).changed = true ↔
    scan.changed = true ∨
      ∃ name ∈ names, differs (scan.table.get name) (sys.iface name) = true := by
  induction names generalizing scan with
  | nil => simp
  | cons first names ih =>
    rw [List.foldl_cons, ih, List.exists_mem_cons_iff]
    have here : (sys.visit scan first).changed = true ↔
        scan.changed = true ∨ differs (scan.table.get first) (sys.iface first) = true := by
      change (if differs (scan.table.get first) (sys.iface first) then true else scan.changed) =
        true ↔ _
      by_cases change : differs (scan.table.get first) (sys.iface first) = true <;> simp [change]
    have later : ∀ name, differs ((sys.visit scan first).table.get name) (sys.iface name) = true →
        differs (scan.table.get name) (sys.iface name) = true := by
      intro name change
      rw [get_visit] at change
      by_cases again : name = first
      · subst again
        rw [if_pos rfl, differs_self] at change
        cases change
      · rwa [if_neg again] at change
    rw [here, or_assoc]
    refine or_congr_right ⟨Or.imp_right fun ⟨name, mem, change⟩ => ⟨name, mem, later name change⟩, ?_⟩
    rintro (first | ⟨name, mem, change⟩)
    · exact .inl first
    · by_cases again : name = first
      · exact .inl (again ▸ change)
      · refine .inr ⟨name, mem, ?_⟩
        rwa [get_visit, if_neg again]

/-- Interfaces that the table has are put where they stand. -/
theorem entries_visits (present : ∀ name ∈ names, scan.table.get name ≠ none) :
    (names.foldl sys.visit scan).table.entries =
      scan.table.entries.map fun e => ⟨e.1, if e.1 ∈ names then sys.iface e.1 else e.2⟩ := by
  induction names generalizing scan with
  | nil => simp
  | cons first names ih =>
    obtain ⟨here, later⟩ := List.forall_mem_cons.mp present
    have stays : ∀ name ∈ names, (sys.visit scan first).table.get name ≠ none := by
      intro name mem
      rw [get_visit]
      split
      · exact Option.some_ne_none _
      · exact later name mem
    have placed : (sys.visit scan first).table.entries =
        scan.table.entries.map fun e => ⟨e.1, if e.1 = first then sys.iface first else e.2⟩ := by
      obtain ⟨old, known⟩ := Option.ne_none_iff_exists'.mp here
      change (scan.table.insertInPlace first (sys.iface first)).entries = _
      rw [HashMap.insertInPlace, known]
    rw [List.foldl_cons, ih stays, placed, List.map_map]
    refine List.map_congr_left fun e _ => Sigma.ext rfl (heq_of_eq ?_)
    by_cases same : e.1 = first
    · simp [same]
    · simp [same]

theorem get_drops : (names.foldl Scan.drop scan).table.get name =
    if name ∈ names then none else scan.table.get name := by
  induction names generalizing scan with
  | nil => simp
  | cons first names ih =>
    have removed : (scan.drop first).table.get name =
        if name = first then none else scan.table.get name := HashMap.get_remove _ _ _
    rw [List.foldl_cons, ih, removed]
    by_cases later : name ∈ names
    · simp [later]
    · simp [later]

theorem changed_drops : (names.foldl Scan.drop scan).changed = true ↔
    scan.changed = true ∨ names ≠ [] := by
  induction names generalizing scan with
  | nil => simp
  | cons first names ih =>
    rw [List.foldl_cons, ih]
    simp [Scan.drop]

end Loops

namespace NetworkState

variable {state : NetworkState} {sys : Sysfs} {name : String}

theorem get_scan : (state.scan sys).table.get name =
    if name ∈ sys.interfaces then some (sys.iface name) else state.interfaces.get name := by
  rw [scan_eq, get_visits]

/-- The interfaces to remove. -/
theorem mem_gone :
    name ∈ (state.scan sys).table.keys.filter (· ∉ (state.scan sys).seen) ↔
      name ∉ sys.interfaces ∧ state.interfaces.get name ≠ none := by
  have seen : name ∈ (state.scan sys).seen ↔ name ∈ sys.interfaces := by
    rw [scan_eq, mem_seen_visits]
    simp
  have key : name ∈ (state.scan sys).table.keys ↔ (state.scan sys).table.get name ≠ none := by
    rw [ne_eq, HashMap.get_eq_none_iff, not_not]
  rw [List.mem_filter, decide_eq_true_iff, seen, key, get_scan, and_comm]
  refine and_congr_right fun absent => ?_
  rw [if_neg absent]

/-- The table holds what the snapshot shows, and nothing else. -/
theorem get_prune : (state.prune sys).table.get name =
    if name ∈ sys.interfaces then some (sys.iface name) else none := by
  rw [prune, get_drops, get_scan]
  by_cases shown : name ∈ sys.interfaces
  · rw [if_neg fun gone => (mem_gone.mp gone).1 shown, if_pos shown, if_pos shown]
  · rw [if_neg shown, if_neg shown]
    split
    · rfl
    · rename_i kept
      by_contra present
      exact kept (mem_gone.mpr ⟨shown, present⟩)

/-- What a detection notices of the interfaces. -/
theorem changed_prune : (state.prune sys).changed = true ↔
    (∃ name ∈ sys.interfaces, differs (state.interfaces.get name) (sys.iface name) = true) ∨
      ∃ name, name ∉ sys.interfaces ∧ state.interfaces.get name ≠ none := by
  rw [prune, changed_drops, scan_eq, changed_visits]
  refine or_congr (or_iff_right Bool.false_ne_true) ?_
  rw [← scan_eq]
  constructor
  · intro some
    obtain ⟨name, mem⟩ := List.exists_mem_of_ne_nil _ some
    exact ⟨name, mem_gone.mp mem⟩
  · rintro ⟨name, gone⟩
    exact List.ne_nil_of_mem (mem_gone.mpr gone)

/-- Without a new interface, and none gone, each stays where it is. -/
theorem entries_prune (present : ∀ name ∈ sys.interfaces, state.interfaces.get name ≠ none)
    (shown : ∀ name, state.interfaces.get name ≠ none → name ∈ sys.interfaces) :
    (state.prune sys).table.entries =
      state.interfaces.entries.map fun e => ⟨e.1, sys.iface e.1⟩ := by
  have gone : (state.scan sys).table.keys.filter (· ∉ (state.scan sys).seen) = [] := by
    refine List.eq_nil_iff_forall_not_mem.mpr fun name mem => ?_
    obtain ⟨absent, known⟩ := mem_gone.mp mem
    exact absent (shown name known)
  rw [prune, gone, List.foldl_nil, scan_eq, entries_visits present]
  refine List.map_congr_left fun e mem => ?_
  have known : state.interfaces.get e.1 = some e.2 := HashMap.mem_entries.mp mem
  rw [if_pos (shown e.1 (known ▸ Option.some_ne_none e.2))]

/-! ### A detection -/

theorem detect_eq : (state.detectInterfaces sys).2 =
    { state.pruned sys with internetAvailable := (state.pruned sys).connected } := by
  unfold detectInterfaces
  split
  · rfl
  · rename_i same
    rw [← not_not.mp same]
    rfl

/-- After a detection the interfaces are those of the snapshot. -/
theorem get_detect : (state.detectInterfaces sys).2.interfaces.get name =
    if name ∈ sys.interfaces then some (sys.iface name) else none := by
  rw [detect_eq]
  exact get_prune

/-- After a detection the internet flag says whether there is a connection. -/
theorem internetAvailable_detect : (state.detectInterfaces sys).2.internetAvailable =
    (state.detectInterfaces sys).2.connected := by
  rw [detect_eq]
  rfl

/-- A detection that returns false has noticed nothing, and the flag stays as it is. -/
theorem detect_eq_false : (state.detectInterfaces sys).1 = false ↔
    (state.prune sys).changed = false ∧ state.internetAvailable = (state.pruned sys).connected := by
  unfold detectInterfaces
  split
  · rename_i other
    simp [other]
  · rename_i same
    simp [not_not.mp same]

theorem connected_iff : state.connected = true ↔
    ∃ name iface, state.interfaces.get name = some iface ∧ iface.active := by
  rw [connected, values, List.any_map, List.any_eq_true]
  constructor
  · rintro ⟨e, mem, active⟩
    exact ⟨e.1, e.2, HashMap.mem_entries.mp mem, active⟩
  · rintro ⟨name, iface, found, active⟩
    exact ⟨⟨name, iface⟩, HashMap.mem_entries.mpr found, active⟩

/-- What is published of the interfaces, in the order of the table. -/
theorem interfaces_of_payload {state' : NetworkState} (same : state'.payload = state.payload) :
    state'.values.map (·.toJson) = state.values.map (·.toJson) := by
  have field := get_eq_of_record_eq "interfaces" same (by simp) (by simp)
  simpa using field

theorem iftype_of_toJson {iface iface' : InterfaceState} (same : iface'.toJson = iface.toJson) :
    iface'.iftype = iface.iftype := by
  have field := get_eq_of_record_eq "iftype" same (by simp) (by simp)
  have text : iface'.iftype.debug = iface.iftype.debug := by simpa using field
  generalize iface'.iftype = new at text ⊢
  generalize iface.iftype = old at text ⊢
  cases new <;> cases old <;> first | rfl | exact absurd text (by decide)

end NetworkState

/-! ### Two snapshots -/

section Snapshots

variable (prev next : Sysfs)

/-- The same interfaces are there. -/
def SameNames : Prop := ∀ name, name ∈ next.interfaces ↔ name ∈ prev.interfaces

/-- No interface has gone up or down, or lost or got its carrier. -/
def SameFlags : Prop := ∀ name ∈ prev.interfaces,
  next.readFlag name "operstate" "up" = prev.readFlag name "operstate" "up" ∧
    next.readFlag name "carrier" "1" = prev.readFlag name "carrier" "1"

/-- No interface is detected as of another type. -/
def SameTypes : Prop := ∀ name ∈ prev.interfaces, next.detectIftype name = prev.detectIftype name

variable {prev next} {name : String}

theorem detectIp_congr
    (up : next.readFlag name "operstate" "up" = prev.readFlag name "operstate" "up") :
    next.detectIp name = prev.detectIp name := by
  rw [Sysfs.detectIp, Sysfs.detectIp, up]

theorem differs_iface : differs (some (prev.iface name)) (next.iface name) = false ↔
    next.readFlag name "operstate" "up" = prev.readFlag name "operstate" "up" ∧
      next.readFlag name "carrier" "1" = prev.readFlag name "carrier" "1" := by
  rw [differs_eq_false]
  constructor
  · rintro ⟨carrier, -, up⟩
    exact ⟨up.symm, carrier.symm⟩
  · rintro ⟨up, carrier⟩
    exact ⟨carrier.symm, (detectIp_congr up).symm, up.symm⟩

/-- Whether an interface leads somewhere is seen at its name and its carrier. -/
theorem active_iface (sys : Sysfs) :
    (sys.iface name).active = (sys.readFlag name "carrier" "1" && name ≠ "lo") := by
  have loopback : sys.detectIftype name = .loopback ↔ name = "lo" := by
    unfold Sysfs.detectIftype
    split_ifs with lo wireless <;> simp [lo]
  simp [InterfaceState.active, Sysfs.iface, loopback]

/-- The state after a detection, whatever the order of its table is. -/
structure Follows (sys : Sysfs) (state : NetworkState) : Prop where
  table : ∀ name, state.interfaces.get name =
    if name ∈ sys.interfaces then some (sys.iface name) else none
  flag : state.internetAvailable = state.connected

theorem follows_of_detect {before state : NetworkState}
    (table : state.SameInterfaces (before.detectInterfaces prev).2)
    (flag : state.internetAvailable = (before.detectInterfaces prev).2.internetAvailable) :
    Follows prev state where
  table name := (table name).trans NetworkState.get_detect
  flag := by
    rw [flag, NetworkState.internetAvailable_detect, Bool.eq_iff_iff, NetworkState.connected_iff,
      NetworkState.connected_iff]
    simp only [table _]

variable {state : NetworkState}

namespace Follows

variable (follows : Follows prev state)
include follows

theorem known_iff : state.interfaces.get name ≠ none ↔ name ∈ prev.interfaces := by
  rw [follows.table]
  split <;> simp_all

theorem get_eq (shown : name ∈ prev.interfaces) :
    state.interfaces.get name = some (prev.iface name) := by
  rw [follows.table, if_pos shown]

/-- The comparison notices a change of the names or of the flags, and no other. -/
theorem changed_iff : (state.prune next).changed = false ↔
    SameNames prev next ∧ SameFlags prev next := by
  rw [← Bool.not_eq_true, NetworkState.changed_prune, not_or]
  push Not
  constructor
  · rintro ⟨unchanged, stays⟩
    have back : ∀ name ∈ prev.interfaces, name ∈ next.interfaces := fun name shown => by
      by_contra gone
      exact absurd (stays name gone) (follows.known_iff.mpr shown)
    have fwd : ∀ name ∈ next.interfaces, name ∈ prev.interfaces := fun name shown => by
      have same := unchanged name shown
      by_contra new
      rw [follows.table, if_neg new] at same
      exact same rfl
    refine ⟨fun name => ⟨fwd name, back name⟩, fun name shown => ?_⟩
    have same := unchanged name (back name shown)
    rw [follows.get_eq shown] at same
    exact differs_iface.mp (Bool.eq_false_iff.mpr same)
  · rintro ⟨names, flags⟩
    refine ⟨fun name shown => ?_, fun name gone => ?_⟩
    · have known := (names name).mp shown
      rw [follows.get_eq known]
      exact Bool.eq_false_iff.mp (differs_iface.mpr (flags name known))
    · rw [follows.table, if_neg fun shown => gone ((names name).mpr shown)]

/-- Then there is a connection iff there was one. -/
theorem connected_pruned (names : SameNames prev next) (flags : SameFlags prev next) :
    (state.pruned next).connected = state.connected := by
  rw [Bool.eq_iff_iff, NetworkState.connected_iff, NetworkState.connected_iff]
  refine exists_congr fun name => ?_
  change (∃ iface, (state.prune next).table.get name = some iface ∧ _) ↔ _
  rw [NetworkState.get_prune, follows.table]
  by_cases shown : name ∈ prev.interfaces
  · rw [if_pos shown, if_pos ((names name).mpr shown)]
    simp only [Option.some.injEq, exists_eq_left', active_iface, (flags name shown).2]
  · rw [if_neg shown, if_neg fun there => shown ((names name).mp there)]

theorem detect_eq_false_iff : (state.detectInterfaces next).1 = false ↔
    SameNames prev next ∧ SameFlags prev next := by
  rw [NetworkState.detect_eq_false, follows.changed_iff, and_iff_left_iff_imp]
  rintro ⟨names, flags⟩
  rw [follows.connected_pruned names flags, follows.flag]

theorem entries_prune (names : SameNames prev next) : (state.prune next).table.entries =
    state.interfaces.entries.map fun e => ⟨e.1, next.iface e.1⟩ :=
  NetworkState.entries_prune
    (fun name shown => follows.known_iff.mpr ((names name).mp shown))
    (fun name known => (names name).mpr (follows.known_iff.mp known))

theorem iface_eq {e : Entry} (mem : e ∈ state.interfaces.entries) :
    e.1 ∈ prev.interfaces ∧ e.2 = prev.iface e.1 := by
  have found : state.interfaces.get e.1 = some e.2 := HashMap.mem_entries.mp mem
  have shown := follows.known_iff.mp (found ▸ Option.some_ne_none e.2)
  rw [follows.get_eq shown] at found
  exact ⟨shown, (Option.some.inj found).symm⟩

/-- If the types are the same as well, a detection changes nothing at all. -/
theorem detect_of_same (names : SameNames prev next) (flags : SameFlags prev next)
    (types : SameTypes prev next) : (state.detectInterfaces next).2 = state := by
  have kept : (state.prune next).table = state.interfaces := by
    refine AList.ext ?_
    rw [follows.entries_prune names]
    refine (List.map_congr_left fun e mem => ?_).trans (List.map_id _)
    obtain ⟨shown, found⟩ := follows.iface_eq mem
    have same : next.iface e.1 = prev.iface e.1 := by
      simp only [Sysfs.iface, types e.1 shown, (flags e.1 shown).1, (flags e.1 shown).2,
        detectIp_congr (flags e.1 shown).1]
    exact Sigma.ext rfl (heq_of_eq (same.trans found.symm))
  rw [NetworkState.detect_eq, follows.connected_pruned names flags, ← follows.flag,
    NetworkState.pruned, kept]

/-- If the same is published, the types are the same. -/
theorem types_of_payload (names : SameNames prev next)
    (same : (state.detectInterfaces next).2.payload = state.payload) : SameTypes prev next := by
  have published := NetworkState.interfaces_of_payload same
  have entries : (state.detectInterfaces next).2.interfaces.entries =
      state.interfaces.entries.map fun e => ⟨e.1, next.iface e.1⟩ := by
    rw [NetworkState.detect_eq]
    exact follows.entries_prune names
  rw [NetworkState.values, NetworkState.values, entries, List.map_map, List.map_map, List.map_map,
    List.map_inj_left] at published
  intro name shown
  have mem : ⟨name, prev.iface name⟩ ∈ state.interfaces.entries :=
    HashMap.mem_entries.mpr (follows.get_eq shown)
  exact NetworkState.iftype_of_toJson (published _ mem)

end Follows

end Snapshots

/-- **A detection that returns false leaves all that is published as it was iff** the names or the
flags have changed since the snapshot before (and it does not return false), or no interface is
detected as of another type. -/
theorem detect_unchanged_iff (before state : NetworkState) (prev next : Sysfs)
    (table : state.SameInterfaces (before.detectInterfaces prev).2)
    (flag : state.internetAvailable = (before.detectInterfaces prev).2.internetAvailable) :
    ((state.detectInterfaces next).1 = false →
        (state.detectInterfaces next).2.payload = state.payload) ↔
      ¬ SameNames prev next ∨ ¬ SameFlags prev next ∨ SameTypes prev next := by
  have follows := follows_of_detect table flag
  rw [follows.detect_eq_false_iff]
  constructor
  · intro published
    by_cases names : SameNames prev next
    · by_cases flags : SameFlags prev next
      · exact .inr (.inr (follows.types_of_payload names (published ⟨names, flags⟩)))
      · exact .inr (.inl flags)
    · exact .inl names
  · rintro (names | flags | types) ⟨names', flags'⟩
    · exact absurd names' names
    · exact absurd flags' flags
    · rw [follows.detect_of_same names' flags' types]

/-! ### Examples -/

/-- `new`. -/
def NetworkState.new : NetworkState := ⟨∅, false⟩

/-- One interface, which is up; its driver may not have made the directory `wireless` yet. -/
def wlan (made carrier : Bool) : Sysfs where
  names := some ["wlan0"]
  wireless _ := made
  read _ file := if file = "operstate" then some "up\n" else some (if carrier then "1\n" else "0\n")

/-- The state after the first detection. -/
def firstDetected : NetworkState := (NetworkState.new.detectInterfaces (wlan false true)).2

/-- The carrier is lost, which is noticed, whatever the type is. -/
theorem carrier_noticed : firstDetected.isMetered = false ∧
    ((firstDetected.detectInterfaces (wlan true false)).1 = false →
      (firstDetected.detectInterfaces (wlan true false)).2.payload = firstDetected.payload) := by
  refine ⟨rfl, ?_⟩
  refine (detect_unchanged_iff .new firstDetected (wlan false true) (wlan true false)
    (fun name => rfl) rfl).mpr ?_
  refine .inr (.inl fun flags => ?_)
  have shown : "wlan0" ∈ (wlan false true).interfaces := by decide
  exact absurd (flags "wlan0" shown).2 (by decide)

/-- The interface turns out to be wireless. That makes the connection metered, and is not
noticed. -/
theorem type_not_noticed : (firstDetected.detectInterfaces (wlan true true)).1 = false ∧
    firstDetected.connectionType = "ethernet" ∧ firstDetected.isMetered = false ∧
    (firstDetected.detectInterfaces (wlan true true)).2.connectionType = "wifi" ∧
    (firstDetected.detectInterfaces (wlan true true)).2.isMetered = true ∧
    (firstDetected.detectInterfaces (wlan true true)).2.payload ≠ firstDetected.payload := by
  refine ⟨rfl, rfl, rfl, rfl, rfl, fun same => ?_⟩
  have field := get_eq_of_record_eq "metered" same (by simp) (by simp)
  have metered : (firstDetected.detectInterfaces (wlan true true)).2.isMetered =
      firstDetected.isMetered := by
    simpa using field
  exact absurd metered (by decide)

end Netmd
