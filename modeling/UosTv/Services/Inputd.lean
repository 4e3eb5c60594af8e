import UosTv.Lib.Queues
import UosTv.Stardust.Params

/-!
Input devices (`inputd`, `InputHandler` and `main`).

The events of all devices are read by one thread, and pass through two channels before they are
published, one by one and in order (`input_published`). What is published of a key that is on the
remote control tells neither a press from a release nor one power key from the other; of every
other key it tells all (`sent_alike_iff`).
-/

namespace Inputd

open Queues SerdeJson Stardust

inductive RemoteKey where
  | up
  | down
  | left
  | right
  | ok
  | back
  | home
  | menu
  | volumeUp
  | volumeDown
  | mute
  | power
  | source
  | channelUp
  | channelDown
  | red
  | green
  | blue
  | yellow
  | play
  | pause
  | stop
  | forward
  | rewind
  | numeric (n : UInt8)
deriving DecidableEq, Repr

inductive EventKind where
  | keyPress (code : UInt16)
  | keyRelease (code : UInt16)
  | remoteButton (key : RemoteKey)
deriving DecidableEq, Repr

structure InputEvent where
  device : String
  kind : EventKind
deriving DecidableEq, Repr

/-- An event of `evdev`. -/
inductive RawEvent where
  | key (code : UInt16) (value : Int32)
  | other

namespace IrRemoteMap

def decode (code : UInt16) : Option RemoteKey :=
  match code.toNat with
  | 103 => some .up
  | 108 => some .down
  | 105 => some .left
  | 106 => some .right
  | 28 => some .ok
  | 158 => some .back
  | 102 => some .home
  | 139 => some .menu
  | 115 => some .volumeUp
  | 114 => some .volumeDown
  | 113 => some .mute
  | 116 => some .power
  | 142 => some .power
  | 362 => some .source
  | 402 => some .channelUp
  | 403 => some .channelDown
  | 398 => some .red
  | 399 => some .green
  | 400 => some .blue
  | 401 => some .yellow
  | 207 => some .play
  | 119 => some .pause
  | 128 => some .stop
  | 208 => some .forward
  | 168 => some .rewind
  | 2 => some (.numeric 1)
  | 3 => some (.numeric 2)
  | 4 => some (.numeric 3)
  | 5 => some (.numeric 4)
  | 6 => some (.numeric 5)
  | 7 => some (.numeric 6)
  | 8 => some (.numeric 7)
  | 9 => some (.numeric 8)
  | 10 => some (.numeric 9)
  | 11 => some (.numeric 0)
  | _ => none

def name : RemoteKey → String
  | .up => "Up"
  | .down => "Down"
  | .left => "Left"
  | .right => "Right"
  | .ok => "OK"
  | .back => "Back"
  | .home => "Home"
  | .menu => "Menu"
  | .volumeUp => "Vol+"
  | .volumeDown => "Vol-"
  | .mute => "Mute"
  | .power => "Power"
  | .source => "Source"
  | .channelUp => "CH+"
  | .channelDown => "CH-"
  | .red => "Red"
  | .green => "Green"
  | .blue => "Blue"
  | .yellow => "Yellow"
  | .play => "Play"
  | .pause => "Pause"
  | .stop => "Stop"
  | .forward => "Fwd"
  | .rewind => "Rwd"
  | .numeric 0 => "0"
  | .numeric 1 => "1"
  | .numeric 2 => "2"
  | .numeric 3 => "3"
  | .numeric 4 => "4"
  | .numeric 5 => "5"
  | .numeric 6 => "6"
  | .numeric 7 => "7"
  | .numeric 8 => "8"
  | .numeric 9 => "9"
  | .numeric _ => "?"

end IrRemoteMap

open IrRemoteMap

/-- `translate_ev`. -/
def translateEv (path : String) : RawEvent → Option InputEvent
  | .key code value =>
    match decode code with
    | some remoteKey => some ⟨path, .remoteButton remoteKey⟩
    | none =>
      if value = 1 then some ⟨path, .keyPress code⟩
      else if value = 0 then some ⟨path, .keyRelease code⟩
      else none
  | .other => none

/-- What is published about a button of the remote control. -/
def buttonPayload (device : String) (key : RemoteKey) : Value := record [
  ("device", .string device),
  ("button", .string (name key)),
  ("kind", .string "remote")]

/-- What is published about another key. -/
def keyPayload (device : String) (code : UInt16) (state : String) : Value := record [
  ("device", .string device),
  ("key", .number (.posInt code.toUInt64)),
  ("state", .string state)]

namespace InputEvent

variable (event : InputEvent)

def method : String :=
  match event.kind with
  | .remoteButton _ => "input.remote"
  | .keyPress _ => "input.key"
  | .keyRelease _ => "input.key"

def payload : Value :=
  match event.kind with
  | .remoteButton key => buttonPayload event.device key
  | .keyPress code => keyPayload event.device code "pressed"
  | .keyRelease code => keyPayload event.device code "released"

/-- The message for an event. -/
def message (formats : Formats) (stamp : Stamp) : Option Message :=
  statusMessage formats stamp event.method "inputd" event.payload

theorem canonical_payload : Canonical event.payload := by
  have key (code : UInt16) (state : String) : Canonical (keyPayload event.device code state) := by
    refine canonical_record ?_ (by simp)
    simp only [List.forall_mem_cons]
    exact ⟨.string _, .posInt _, .string _, List.forall_mem_nil _⟩
  unfold payload
  split
  · refine canonical_record ?_ (by simp)
    simp only [List.forall_mem_cons]
    exact ⟨.string _, .string _, .string _, List.forall_mem_nil _⟩
  · exact key _ _
  · exact key _ _

end InputEvent

/-! ### The threads -/

/-- The reader sends an event of a device, the bridge takes one from its channel and sends it
to the other one, and the loop of `main` takes one from there and publishes it. -/
inductive Step where
  | read (path : String) (ev : RawEvent)
  | receive
  | send
  | take
  | publish

/-- What is published, what `main` publishes next, the second channel, what the bridge sends next,
and the first channel. -/
def limits : List (Option Nat) := [none, some 1, some 256, some 1, none]

def start : List (List InputEvent) := [[], [], [], [], []]

def step (queues : List (List InputEvent)) : Step → List (List InputEvent)
  | .read path ev =>
    match translateEv path ev with
    | some event => put event queues
    | none => queues
  | .publish => pass 0 limits queues
  | .take => pass 1 limits queues
  | .send => pass 2 limits queues
  | .receive => pass 3 limits queues

def run (steps : List Step) : List (List InputEvent) := steps.foldl step start

/-- The event that is sent by the reader. -/
def Step.event? : Step → Option InputEvent
  | .read path ev => translateEv path ev
  | _ => none

/-- The events that have been published, and those on their way. -/
theorem run_spec (steps : List Step) :
    (run steps).flatten = steps.filterMap Step.event? ∧ Bounded limits (run steps) := by
  induction steps using List.reverseRecOn with
  | nil =>
    refine ⟨rfl, .cons ?_ (.cons ?_ (.cons ?_ (.cons ?_ (.last _))))⟩
    · rintro n ⟨⟩
    · exact fun n _ => Nat.zero_le n
    · exact fun n _ => Nat.zero_le n
    · exact fun n _ => Nat.zero_le n
  | append_singleton steps s ih =>
    obtain ⟨events, bounded⟩ := ih
    rw [run, List.foldl_append, List.foldl_cons, List.foldl_nil, ← run, List.filterMap_append,
      ← events]
    cases s with
    | read path ev =>
      cases translated : translateEv path ev with
      | none =>
        simp only [step, List.filterMap_cons, Step.event?, translated, List.filterMap_nil,
          List.append_nil]
        exact ⟨trivial, bounded⟩
      | some event =>
        simp only [step, List.filterMap_cons, Step.event?, translated, List.filterMap_nil]
        exact ⟨flatten_put event bounded.ne_nil, bounded.put⟩
    | receive => exact ⟨flatten_pass.trans (List.append_nil _).symm, bounded.pass⟩
    | send => exact ⟨flatten_pass.trans (List.append_nil _).symm, bounded.pass⟩
    | take => exact ⟨flatten_pass.trans (List.append_nil _).symm, bounded.pass⟩
    | publish => exact ⟨flatten_pass.trans (List.append_nil _).symm, bounded.pass⟩

/-! ### What is told -/

/-- The codes of the remote control. -/
def remoteCodes : List UInt16 :=
  [103, 108, 105, 106, 28, 158, 102, 139, 115, 114, 113, 116, 142, 362, 402, 403, 398, 399, 400,
    401, 207, 119, 128, 208, 168, 2, 3, 4, 5, 6, 7, 8, 9, 10, 11]

/-- Two codes are the same, or both are of the power key. -/
def SameKey (c c' : UInt16) : Prop := c = c' ∨ c ∈ [116, 142] ∧ c' ∈ [116, 142]

instance (c c' : UInt16) : Decidable (SameKey c c') := inferInstanceAs (Decidable (_ ∨ _))

theorem mem_remoteCodes {c : UInt16} {key : RemoteKey} (decoded : decode c = some key) :
    c ∈ remoteCodes := by
  have code {n : Nat} (value : c.toNat = n) (listed : UInt16.ofNat n ∈ remoteCodes) :
      c ∈ remoteCodes := by
    rwa [← value, UInt16.ofNat_toNat] at listed
  unfold decode at decoded
  split at decoded
  all_goals first | (rename_i value; exact code value (by decide)) | cases decoded

/-- The names of two keys differ. -/
theorem sameKey_of_name {c c' : UInt16} {key key' : RemoteKey} (decoded : decode c = some key)
    (decoded' : decode c' = some key') (same : name key = name key') : SameKey c c' := by
  have table : remoteCodes.all fun c => remoteCodes.all fun c' =>
      (decode c).map name = (decode c').map name → SameKey c c' := by decide +kernel
  simp only [List.all_eq_true, decide_eq_true_eq] at table
  refine table c (mem_remoteCodes decoded) c' (mem_remoteCodes decoded') ?_
  rw [decoded, decoded', Option.map_some, Option.map_some, same]

theorem decode_power {c : UInt16} (mem : c ∈ [116, 142]) : decode c = some .power := by
  simp only [List.mem_cons, List.not_mem_nil, or_false] at mem
  rcases mem with rfl | rfl <;> rfl

theorem decode_eq_of_sameKey {c c' : UInt16} (same : SameKey c c') : decode c = decode c' := by
  rcases same with rfl | ⟨mem, mem'⟩
  · rfl
  · rw [decode_power mem, decode_power mem']

section Alike

variable {d d' : String} {c c' : UInt16} {v v' : Int32} {e e' : InputEvent}

/-- What is sent for an event of a key. -/
theorem translateEv_cases (sent : translateEv d (.key c v) = some e) :
    (∃ key, decode c = some key ∧ e.method = "input.remote" ∧ e.payload = buttonPayload d key) ∨
      decode c = none ∧ ∃ state, (state, v) ∈ [("pressed", (1 : Int32)), ("released", 0)] ∧
        e.method = "input.key" ∧ e.payload = keyPayload d c state := by
  rw [translateEv] at sent
  cases decoded : decode c with
  | some key =>
    simp only [decoded, Option.some.injEq] at sent
    subst sent
    exact .inl ⟨key, rfl, rfl, rfl⟩
  | none =>
    simp only [decoded] at sent
    split at sent
    · rename_i press
      cases sent
      exact .inr ⟨rfl, "pressed", by simp [press], rfl, rfl⟩
    split at sent
    · rename_i release
      cases sent
      exact .inr ⟨rfl, "released", by simp [release], rfl, rfl⟩
    · cases sent

theorem translateEv_eq_none_iff :
    translateEv d (.key c v) = none ↔ decode c = none ∧ v ≠ 1 ∧ v ≠ 0 := by
  rw [translateEv]
  cases decode c with
  | some key => simp
  | none =>
    by_cases press : v = 1
    · simp [press]
    · by_cases release : v = 0
      · simp [release]
      · simp [press, release]

/-- What is published about two buttons. -/
theorem buttonPayload_iff {key key' : RemoteKey} :
    buttonPayload d key = buttonPayload d' key' ↔ d = d' ∧ name key = name key' := by
  constructor
  · intro same
    have device := get_eq_of_record_eq "device" same (by simp) (by simp)
    have button := get_eq_of_record_eq "button" same (by simp) (by simp)
    exact ⟨Value.string.inj (Option.some.inj device), Value.string.inj (Option.some.inj button)⟩
  · rintro ⟨rfl, button⟩
    simp only [buttonPayload, button]

theorem keyPayload_iff {state state' : String} :
    keyPayload d c state = keyPayload d' c' state' ↔ d = d' ∧ c = c' ∧ state = state' := by
  constructor
  · intro same
    have device := get_eq_of_record_eq "device" same (by simp) (by simp)
    have key := get_eq_of_record_eq "key" same (by simp) (by simp)
    have state := get_eq_of_record_eq "state" same (by simp) (by simp)
    have code := Number.posInt.inj (Value.number.inj (Option.some.inj key))
    exact ⟨Value.string.inj (Option.some.inj device), UInt16.toUInt64_inj.mp code,
      Value.string.inj (Option.some.inj state)⟩
  · rintro ⟨rfl, rfl, rfl⟩
    rfl

/-- Of a button the device and the key are told, of every other key the device, the code and
whether it is pressed. -/
theorem sent_alike_iff (sent : translateEv d (.key c v) = some e)
    (sent' : translateEv d' (.key c' v') = some e') :
    e.method = e'.method ∧ e.payload = e'.payload ↔
      d = d' ∧ SameKey c c' ∧ (decode c = none → v = v') := by
  rcases translateEv_cases sent with
    ⟨key, decoded, method, payload⟩ | ⟨unknown, state, press, method, payload⟩
  · rcases translateEv_cases sent' with
      ⟨key', decoded', method', payload'⟩ | ⟨unknown', -, -, method', -⟩
    · have names : name key = name key' ↔ SameKey c c' := by
        refine ⟨sameKey_of_name decoded decoded', fun same => ?_⟩
        have codes := decode_eq_of_sameKey same
        rw [decoded, decoded'] at codes
        rw [Option.some.inj codes]
      have vacuous : decode c = none → v = v' := fun none => by
        rw [decoded] at none
        cases none
      rw [method, method', payload, payload', buttonPayload_iff, names, and_iff_left vacuous,
        and_iff_right rfl]
    · refine iff_of_false (fun same => ?_) fun same => ?_
      · exact absurd (method.symm.trans (same.1.trans method')) (by decide)
      · have codes := decode_eq_of_sameKey same.2.1
        rw [decoded, unknown'] at codes
        cases codes
  · rcases translateEv_cases sent' with
      ⟨key', decoded', method', -⟩ | ⟨unknown', state', press', method', payload'⟩
    · refine iff_of_false (fun same => ?_) fun same => ?_
      · exact absurd (method.symm.trans (same.1.trans method')) (by decide)
      · have codes := decode_eq_of_sameKey same.2.1
        rw [decoded', unknown] at codes
        cases codes
    · have states : state = state' ↔ v = v' := by
        simp only [List.mem_cons, List.not_mem_nil, or_false, Prod.mk.injEq] at press press'
        rcases press with ⟨rfl, rfl⟩ | ⟨rfl, rfl⟩
        · rcases press' with ⟨rfl, rfl⟩ | ⟨rfl, rfl⟩ <;> decide
        · rcases press' with ⟨rfl, rfl⟩ | ⟨rfl, rfl⟩ <;> decide
      have codes : SameKey c c' ↔ c = c' := by
        refine ⟨fun same => ?_, .inl⟩
        rcases same with same | ⟨mem, -⟩
        · exact same
        · rw [decode_power mem] at unknown
          cases unknown
      rw [method, method', payload, payload', keyPayload_iff, states, codes]
      simp [unknown]

end Alike

/-- However the threads take turns, what has been published and what is on its way are the events
that have been read, in their order and each of them once, and the channels stay within their
limits. Every event has a message. The messages of two events of keys are alike iff they are of
one device and one key, and also of one state unless the key is on the remote control; nothing is
sent for a key that repeats, unless it is. -/
theorem input_published (formats : Formats) (steps : List Step) :
    (run steps).flatten = steps.filterMap Step.event? ∧ Bounded limits (run steps) ∧
      (∀ event stamp, ∃ msg, InputEvent.message event formats stamp = some msg ∧
        formats.parseParamsToValue msg.params = .object [("payload", event.payload)]) ∧
      (∀ d c v, translateEv d (.key c v) = none ↔ decode c = none ∧ v ≠ 1 ∧ v ≠ 0) ∧
      ∀ d d' c c' v v' e e', translateEv d (.key c v) = some e →
        translateEv d' (.key c' v') = some e' →
          (e.method = e'.method ∧ e.payload = e'.payload ↔
            d = d' ∧ SameKey c c' ∧ (decode c = none → v = v')) := by
  obtain ⟨events, bounded⟩ := run_spec steps
  refine ⟨events, bounded, fun event stamp => ?_, fun d c v => translateEv_eq_none_iff, ?_⟩
  · exact exists_statusMessage formats stamp event.method "inputd" event.canonical_payload
  · exact fun d d' c c' v v' e e' sent sent' => sent_alike_iff sent sent'

end Inputd
