import Mathlib.Algebra.Ring.Int.Defs
import UosTv.Lib.Latest
import UosTv.Rust.Lines
import UosTv.Serde.JsonReader

/-!
What `netmd` reads from `wpa_cli` (`wifi.rs`).

`wpa_cli` prints tables, with tabs between the fields of a row, and settings, one in a line. What
it prints is read back (`wifi_read_back`): the networks that a scan has found, the strongest
first, the networks that are saved, and the last value of each setting.
-/

namespace Netmd

open Latest Rust SerdeJson

structure WifiNetwork where
  ssid : String
  bssid : String
  frequency : String
  signalStrength : Int
  security : String
deriving DecidableEq, Repr

structure SavedNetwork where
  id : Nat
  ssid : String
  bssid : String
  flags : String
deriving DecidableEq, Repr

structure WifiStatus where
  ssid : Option String
  bssid : Option String
  freq : Option Nat
  ipAddress : Option String
  keyMgmt : Option String
  wpaState : Option String
deriving DecidableEq, Repr

/-- `str::parse::<i32>().ok()`. -/
def parseI32 (s : String) : Option Int :=
  match s.toList with
  | '-' :: cs => (parseDigits (2 ^ 31 + 1) cs).map fun n : Nat => -(n : Int)
  | '+' :: cs => (parseDigits (2 ^ 31) cs).map fun n : Nat => (n : Int)
  | cs => (parseDigits (2 ^ 31) cs).map fun n : Nat => (n : Int)

/-- The kind of security that is read from the flags of a network. -/
def securityOf (flags : String) : String :=
  if contains flags "WPA2" then "WPA2"
  else if contains flags "WPA" then "WPA"
  else if contains flags "WEP" then "WEP"
  else "OPEN"

/-- The fields of a line of the results of a scan. -/
def WifiNetwork.ofFields : List String → Option WifiNetwork
  | bssid :: frequency :: level :: flags :: ssid :: _ =>
    if ssid = "" then none
    else some ⟨ssid, bssid, frequency, (parseI32 level).getD 0, securityOf flags⟩
  | _ => none

def parseScanResults (output : String) : List WifiNetwork :=
  descending WifiNetwork.signalStrength
    (((lines output).drop 1).filterMap fun line => WifiNetwork.ofFields (split line '\t'))

/-- The fields of a line of the list of networks. -/
def SavedNetwork.ofFields : List String → Option SavedNetwork
  | id :: ssid :: bssid :: flags :: _ => (parseU32 id).map fun id => ⟨id, ssid, bssid, flags⟩
  | _ => none

def parseNetworkList (output : String) : List SavedNetwork :=
  ((lines output).drop 1).filterMap fun line => SavedNetwork.ofFields (split line '\t')

/-- A line of the status. The flag is set when there is an SSID. -/
def readStatusLine (read : WifiStatus × Bool) (line : String) : WifiStatus × Bool :=
  let (status, found) := read
  match stripPrefix line "ssid=" with
  | some val => ({ status with ssid := some val }, true)
  | none => match stripPrefix line "bssid=" with
  | some val => ({ status with bssid := some val }, found)
  | none => match stripPrefix line "freq=" with
  | some val => ({ status with freq := parseU32 val }, found)
  | none => match stripPrefix line "ip_address=" with
  | some val => ({ status with ipAddress := some val }, found)
  | none => match stripPrefix line "key_mgmt=" with
  | some val => ({ status with keyMgmt := some val }, found)
  | none => match stripPrefix line "wpa_state=" with
  | some val => ({ status with wpaState := some val }, found)
  | none => (status, found)

def parseWifiStatus (output : String) : Option WifiStatus :=
  let (status, found) :=
    (lines output).foldl readStatusLine (⟨none, none, none, none, none, none⟩, false)
  if found then some status else none

/-- `scan`, given whether `wpa_cli` can be run for it, and what it prints of the results. -/
def scan (started : Bool) (results : Option (List UInt8)) : List WifiNetwork :=
  if started then
    match results with
    | some stdout => parseScanResults (fromUtf8Lossy stdout)
    | none => []
  else []

/-! ### What is printed -/

/-- No tab and no end of a line. -/
def Plain (s : String) : Prop := ∀ c ∈ s.toList, c ≠ '\t' ∧ c ≠ '\n' ∧ c ≠ '\r'

/-- A row of a table. -/
def row (fields : List String) : String := String.intercalate (String.singleton '\t') fields

/-- A table with a header. -/
def printed (header : String) (rows : List (List String)) : String := table (header :: rows.map row)

/-- What `%d` prints. -/
def decimalText (n : Int) : String :=
  String.ofList (if n < 0 then '-' :: digits n.natAbs else digits n.natAbs)

/-- A network as it is found by a scan. -/
structure ScanRow where
  bssid : String
  frequency : String
  level : Int
  flags : String
  ssid : String

namespace ScanRow

def fields (r : ScanRow) : List String :=
  [r.bssid, r.frequency, decimalText r.level, r.flags, r.ssid]

structure Clean (r : ScanRow) : Prop where
  plain : ∀ s ∈ [r.bssid, r.frequency, r.flags, r.ssid], Plain s
  level : -2 ^ 31 ≤ r.level ∧ r.level < 2 ^ 31

def network (r : ScanRow) : WifiNetwork :=
  ⟨r.ssid, r.bssid, r.frequency, r.level, securityOf r.flags⟩

end ScanRow

/-- What `wpa_cli scan_results` prints. -/
def scanOutput (rows : List ScanRow) : String :=
  printed "bssid / frequency / signal level / flags / ssid" (rows.map ScanRow.fields)

def SavedNetwork.fields (n : SavedNetwork) : List String :=
  [decimalText n.id, n.ssid, n.bssid, n.flags]

structure SavedNetwork.Clean (n : SavedNetwork) : Prop where
  plain : ∀ s ∈ [n.ssid, n.bssid, n.flags], Plain s
  id : n.id < 2 ^ 32

/-- What `wpa_cli list_networks` prints. -/
def listOutput (networks : List SavedNetwork) : String :=
  printed "network id / ssid / bssid / flags" (networks.map SavedNetwork.fields)

/-- A setting as it is printed. -/
def settingLine (e : String × String) : String := e.1 ++ "=" ++ e.2

/-- What `wpa_cli status` prints. -/
def statusOutput (settings : List (String × String)) : String := table (settings.map settingLine)

/-- The last value of a setting. -/
def lastValue (settings : List (String × String)) (name : String) : Option String :=
  (settings.reverse.find? (·.1 = name)).map (·.2)

/-- The setting has a name without `=`, and is printed in one line. -/
def CleanSetting (e : String × String) : Prop := '=' ∉ e.1.toList ∧ Plain e.1 ∧ Plain e.2

/-! ### Numbers -/

section Numbers

variable {n : Int} {k bound : Nat}

theorem parseDigits_digits (small : k < bound) : parseDigits bound (digits k) = some k := by
  have all : (digits k).all Char.isDigit :=
    List.all_eq_true.mpr fun c mem => isDigit_of_mem_digits mem
  rw [parseDigits, decimal_digits, if_pos ⟨Nat.toDigits_ne_nil, all, small⟩]

/-- Digits do not begin with a sign. -/
theorem digits_ne_cons {c : Char} {cs : List Char} (sign : c.isDigit = false) :
    digits k ≠ c :: cs := by
  intro same
  have digit : c.isDigit = true := isDigit_of_mem_digits (by
    rw [same]
    exact List.mem_cons_self)
  rw [sign] at digit
  cases digit

theorem parseI32_decimalText (fits : -2 ^ 31 ≤ n ∧ n < 2 ^ 31) :
    parseI32 (decimalText n) = some n := by
  rw [parseI32, decimalText, String.toList_ofList]
  by_cases negative : n < 0
  · rw [if_pos negative]
    simp only [parseDigits_digits (show n.natAbs < 2 ^ 31 + 1 by omega), Option.map_some]
    congr 1
    omega
  · rw [if_neg negative]
    split
    · rename_i minus
      exact absurd minus (digits_ne_cons rfl)
    · rename_i plus
      exact absurd plus (digits_ne_cons rfl)
    · rw [parseDigits_digits (by omega), Option.map_some]
      congr 1
      omega

theorem parseU32_decimalText (fits : k < 2 ^ 32) : parseU32 (decimalText k) = some k := by
  rw [parseU32, decimalText, if_neg (Int.not_lt.mpr (Int.natCast_nonneg k)), String.toList_ofList,
    Int.natAbs_natCast]
  split
  · rename_i plus
    exact absurd plus (digits_ne_cons rfl)
  · exact parseDigits_digits fits

theorem plain_decimalText (n : Int) : Plain (decimalText n) := by
  have digit {c : Char} (mem : c ∈ digits n.natAbs) : c ≠ '\t' ∧ c ≠ '\n' ∧ c ≠ '\r' := by
    have isDigit := isDigit_of_mem_digits mem
    refine ⟨?_, ?_, ?_⟩ <;> rintro rfl <;> cases isDigit
  intro c mem
  rw [decimalText, String.toList_ofList] at mem
  split at mem
  · rcases List.mem_cons.mp mem with rfl | mem
    · decide
    · exact digit mem
  · exact digit mem

end Numbers

/-! ### Tables -/

section Tables

variable {rows : List (List String)} {header : String}

/-- The rows of a table are read without its header. -/
theorem fields_table (one : '\n' ∉ header.toList ∧ ¬ ['\r'] <:+ header.toList)
    (nonempty : ∀ fields ∈ rows, fields ≠ [])
    (plain : ∀ fields ∈ rows, ∀ s ∈ fields, Plain s) :
    ((lines (printed header rows)).drop 1).map (split · '\t') = rows := by
  have chars : ∀ fields ∈ rows, ∀ c ∈ (row fields).toList, c ≠ '\n' ∧ c ≠ '\r' :=
    fun fields mem => forall_mem_intercalate (by decide) fun s within c char =>
      (plain fields mem s within c char).2
  rw [printed, lines_table]
  · rw [List.drop_one, List.tail_cons, List.map_map]
    refine (List.map_congr_left fun fields mem => ?_).trans (List.map_id rows)
    exact split_intercalate (nonempty fields mem) fun s within tab =>
      (plain fields mem s within _ tab).1 rfl
  · refine List.forall_mem_cons.mpr ⟨one.1, List.forall_mem_map.mpr fun fields mem newline => ?_⟩
    exact (chars fields mem _ newline).1 rfl
  · refine List.forall_mem_cons.mpr ⟨one.2, List.forall_mem_map.mpr fun fields mem ends => ?_⟩
    exact (chars fields mem _ (ends.subset List.mem_cons_self)).2 rfl

end Tables

section Rows

/-- What is read of the elements that are read. -/
theorem filterMap_eq {α β : Type} {l : List α} {f : α → Option β} {p : α → Bool} {g : α → β}
    (read : ∀ a ∈ l, f a = if p a then some (g a) else none) :
    l.filterMap f = (l.filter p).map g := by
  induction l with
  | nil => rfl
  | cons a l ih =>
    obtain ⟨first, others⟩ := List.forall_mem_cons.mp read
    rw [List.filterMap_cons, first, ih others]
    by_cases kept : p a
    · rw [if_pos kept, List.filter_cons_of_pos kept, List.map_cons]
    · rw [if_neg kept, List.filter_cons_of_neg kept]

theorem ScanRow.Clean.plain_fields {r : ScanRow} (clean : r.Clean) : ∀ s ∈ r.fields, Plain s := by
  obtain ⟨bssid, frequency, flags, ssid⟩ := by simpa using clean.plain
  simp only [fields, List.forall_mem_cons]
  exact ⟨bssid, frequency, plain_decimalText _, flags, ssid, List.forall_mem_nil _⟩

theorem SavedNetwork.Clean.plain_fields {n : SavedNetwork} (clean : n.Clean) :
    ∀ s ∈ n.fields, Plain s := by
  obtain ⟨ssid, bssid, flags⟩ := by simpa using clean.plain
  simp only [fields, List.forall_mem_cons]
  exact ⟨plain_decimalText _, ssid, bssid, flags, List.forall_mem_nil _⟩

/-- The networks of a scan, before they are sorted. -/
theorem ofFields_scanOutput {rows : List ScanRow} (clean : ∀ r ∈ rows, r.Clean) :
    (((lines (scanOutput rows)).drop 1).filterMap fun line =>
        WifiNetwork.ofFields (split line '\t')) =
      (rows.filter (·.ssid ≠ "")).map ScanRow.network := by
  have fields : ((lines (scanOutput rows)).drop 1).map (split · '\t') = rows.map ScanRow.fields :=
    fields_table (by decide) (List.forall_mem_map.mpr fun r _ => List.cons_ne_nil _ _)
      (List.forall_mem_map.mpr fun r mem => (clean r mem).plain_fields)
  change (List.filterMap (WifiNetwork.ofFields ∘ (split · '\t')) _) = _
  rw [← List.filterMap_map, fields, List.filterMap_map]
  refine filterMap_eq fun r mem => ?_
  simp only [Function.comp_apply, ScanRow.fields, WifiNetwork.ofFields, ScanRow.network,
    parseI32_decimalText (clean r mem).level, Option.getD_some, decide_eq_true_eq, ite_not]

/-- The list of networks is read. -/
theorem parseNetworkList_listOutput {networks : List SavedNetwork}
    (clean : ∀ n ∈ networks, n.Clean) : parseNetworkList (listOutput networks) = networks := by
  have fields : ((lines (listOutput networks)).drop 1).map (split · '\t') =
      networks.map SavedNetwork.fields :=
    fields_table (by decide) (List.forall_mem_map.mpr fun n _ => List.cons_ne_nil _ _)
      (List.forall_mem_map.mpr fun n mem => (clean n mem).plain_fields)
  rw [parseNetworkList]
  change (List.filterMap (SavedNetwork.ofFields ∘ (split · '\t')) _) = _
  rw [← List.filterMap_map, fields, List.filterMap_map]
  refine (filterMap_eq (p := fun _ => true) (g := id) fun n mem => ?_).trans (by simp)
  simp only [Function.comp_apply, SavedNetwork.fields, SavedNetwork.ofFields,
    parseU32_decimalText (clean n mem).id, Option.map_some, if_true, id]

end Rows

/-! ### Settings -/

section Settings

variable {key name value : String} {settings : List (String × String)}

/-- A prefix of a setting is its name. -/
theorem stripPrefix_setting (plain : '=' ∉ key.toList) (plain' : '=' ∉ name.toList) :
    stripPrefix (key ++ "=" ++ value) (name ++ "=") = if key = name then some value else none := by
  split
  · rename_i same
    rw [same, stripPrefix_append]
  · rename_i other
    refine if_neg fun begins => other ?_
    have read {s : String} (plain : '=' ∉ s.toList) (rest : String) :
        splitOnce (s ++ "=" ++ rest) '=' = some (s, rest) := by
      have sign : "=" = String.singleton '=' := by decide
      rw [sign, splitOnce_append plain]
    obtain ⟨rest, split⟩ := begins
    have same : key ++ "=" ++ value = name ++ "=" ++ String.ofList rest := by
      have whole : (name ++ "=" ++ String.ofList rest).toList = (name ++ "=").toList ++ rest := by
        rw [String.toList_append, String.toList_ofList]
      exact String.toList_inj.mp (split.symm.trans whole.symm)
    have parts := read plain value
    rw [same, read plain'] at parts
    exact (congrArg Prod.fst (Option.some.inj parts)).symm

/-- The status after some settings, and whether there is an SSID. -/
def statusOf (settings : List (String × String)) : WifiStatus × Bool :=
  (⟨lastValue settings "ssid", lastValue settings "bssid",
      (lastValue settings "freq").bind parseU32, lastValue settings "ip_address",
      lastValue settings "key_mgmt", lastValue settings "wpa_state"⟩,
    (lastValue settings "ssid").isSome)

theorem lastValue_concat : lastValue (settings ++ [(key, value)]) name =
    if key = name then some value else lastValue settings name := by
  rw [lastValue, List.reverse_append, List.reverse_singleton, List.singleton_append]
  by_cases same : key = name
  · rw [List.find?_cons_of_pos (by simpa using same), if_pos same, Option.map_some]
  · rw [List.find?_cons_of_neg (by simpa using same), if_neg same, lastValue]

theorem readStatusLine_setting (plain : '=' ∉ key.toList) :
    readStatusLine (statusOf settings) (settingLine (key, value)) =
      statusOf (settings ++ [(key, value)]) := by
  have prefixes (name : String) (plain' : '=' ∉ name.toList) :
      stripPrefix (settingLine (key, value)) (name ++ "=") =
        if key = name then some value else none := stripPrefix_setting plain plain'
  have ssid := prefixes "ssid" (by decide)
  have bssid := prefixes "bssid" (by decide)
  have freq := prefixes "freq" (by decide)
  have ipAddress := prefixes "ip_address" (by decide)
  have keyMgmt := prefixes "key_mgmt" (by decide)
  have wpaState := prefixes "wpa_state" (by decide)
  simp only [String.reduceAppend] at ssid bssid freq ipAddress keyMgmt wpaState
  simp only [readStatusLine, statusOf, lastValue_concat, ssid, bssid, freq, ipAddress, keyMgmt,
    wpaState]
  by_cases isSsid : key = "ssid"
  · simp [isSsid]
  by_cases isBssid : key = "bssid"
  · simp [isBssid]
  by_cases isFreq : key = "freq"
  · simp [isFreq]
  by_cases isIpAddress : key = "ip_address"
  · simp [isIpAddress]
  by_cases isKeyMgmt : key = "key_mgmt"
  · simp [isKeyMgmt]
  by_cases isWpaState : key = "wpa_state"
  · simp [isWpaState]
  · simp only [isSsid, isBssid, isFreq, isIpAddress, isKeyMgmt, isWpaState, if_false]

/-- The settings are read. -/
theorem parseWifiStatus_statusOutput (clean : ∀ e ∈ settings, CleanSetting e) :
    parseWifiStatus (statusOutput settings) =
      if (statusOf settings).2 then some (statusOf settings).1 else none := by
  have chars : ∀ e ∈ settings, ∀ c ∈ (settingLine e).toList, c ≠ '\n' ∧ c ≠ '\r' := by
    intro e mem c char
    rw [settingLine, String.toList_append, String.toList_append] at char
    rcases List.mem_append.mp char with char | char
    · rcases List.mem_append.mp char with char | char
      · exact ((clean e mem).2.1 c char).2
      · cases List.mem_singleton.mp char
        decide
    · exact ((clean e mem).2.2 c char).2
  have read : lines (statusOutput settings) = settings.map settingLine := by
    refine lines_table (List.forall_mem_map.mpr fun e mem newline => ?_)
      (List.forall_mem_map.mpr fun e mem ends => ?_)
    · exact (chars e mem _ newline).1 rfl
    · exact (chars e mem _ (ends.subset List.mem_cons_self)).2 rfl
  have all : (settings.map settingLine).foldl readStatusLine (statusOf []) = statusOf settings := by
    clear chars read
    induction settings using List.reverseRecOn with
    | nil => rfl
    | append_singleton settings e ih =>
      obtain ⟨cleanAll, cleanLast⟩ := List.forall_mem_append.mp clean
      rw [List.map_append, List.foldl_append, ih cleanAll, List.map_singleton, List.foldl_cons,
        List.foldl_nil]
      exact readStatusLine_setting (cleanLast e List.mem_cons_self).1
  rw [parseWifiStatus, read]
  change (if ((settings.map settingLine).foldl readStatusLine (statusOf [])).2 then
    some ((settings.map settingLine).foldl readStatusLine (statusOf [])).1 else none) = _
  rw [all]

end Settings

/-- What `wpa_cli` prints is read back. Of the networks that a scan has found those that are not
hidden are shown, the strongest first and networks of the same strength as they come; without a
scan or its results none is. The saved networks are read as they are, and the status has the last
value of each setting, if there is an SSID among them. -/
theorem wifi_read_back {rows : List ScanRow} {networks : List SavedNetwork}
    {settings : List (String × String)} (found : ∀ r ∈ rows, r.Clean)
    (saved : ∀ n ∈ networks, n.Clean) (clean : ∀ e ∈ settings, CleanSetting e) :
    (∀ started results,
        IsDescending WifiNetwork.signalStrength
          (if started && results then (rows.filter (·.ssid ≠ "")).map ScanRow.network else [])
          (scan started (if results then some (asBytes (scanOutput rows)) else none))) ∧
      parseNetworkList (listOutput networks) = networks ∧
      parseWifiStatus (statusOutput settings) =
        if (lastValue settings "ssid").isSome then some (statusOf settings).1 else none := by
  refine ⟨fun started results => ?_, parseNetworkList_listOutput saved,
    parseWifiStatus_statusOutput clean⟩
  have none : IsDescending WifiNetwork.signalStrength [] [] :=
    ⟨List.Perm.refl _, List.Pairwise.nil, fun _ => rfl⟩
  cases started with
  | false => exact none
  | true =>
    cases results with
    | false => exact none
    | true =>
      simp only [scan, Bool.and_self, if_true, fromUtf8Lossy_asBytes]
      rw [parseScanResults, ofFields_scanOutput found]
      exact isDescending_descending _ _

theorem plain_of_all {s : String} (all : s.toList.all fun c => c ≠ '\t' ∧ c ≠ '\n' ∧ c ≠ '\r') :
    Plain s := by
  simpa [Plain] using all

/-- A network, as it is found by a scan. -/
def sampleRow : ScanRow := ⟨"00:11:22:33:44:55", "2412", -45, "[WPA2-PSK-CCMP][ESS]", "MyWiFi"⟩

theorem sampleRow_clean : sampleRow.Clean where
  plain := by
    simp only [List.forall_mem_cons]
    exact ⟨plain_of_all (by decide), plain_of_all (by decide), plain_of_all (by decide),
      plain_of_all (by decide), List.forall_mem_nil _⟩
  level := by decide

theorem wifi_read_back_sample :
    (∀ started results,
        IsDescending WifiNetwork.signalStrength
          (if started && results then ([sampleRow].filter (·.ssid ≠ "")).map ScanRow.network else [])
          (scan started (if results then some (asBytes (scanOutput [sampleRow])) else none))) ∧
      parseNetworkList (listOutput []) = [] ∧
      parseWifiStatus (statusOutput [("ssid", "MyWiFi")]) =
        if (lastValue [("ssid", "MyWiFi")] "ssid").isSome then
          some (statusOf [("ssid", "MyWiFi")]).1 else none := by
  refine wifi_read_back (List.forall_mem_singleton.mpr sampleRow_clean) (List.forall_mem_nil _) ?_
  refine List.forall_mem_singleton.mpr ⟨?_, plain_of_all (by decide), plain_of_all (by decide)⟩
  decide

end Netmd
