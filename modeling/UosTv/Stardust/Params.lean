import UosTv.Serde.Derive
import UosTv.Serde.Incomplete
import UosTv.Stardust.Message

/-!
Parameters of messages as JSON: `Message::param`, and `parse_params_to_value` of the bridge.

A service attaches its parameters one by one, under keys of one object. What `serde_json` and
`ciborium` do is given (`Formats`); all that is assumed is that `serde_json` reads back what it
has written.
-/

namespace Stardust

open Rust SerdeJson

/-- The given functions: `serde_json::to_vec` and `from_slice`, and `ciborium` followed by
`serde_json::to_value`. -/
structure Formats where
  toVec : Value → Except String (List UInt8)
  fromSlice : List UInt8 → Except String Value
  fromCbor : List UInt8 → Option Value
  fromSlice_toVec (v : Value) (canonical : Canonical v) :
    ∃ bytes, toVec v = .ok bytes ∧ fromSlice bytes = .ok v

namespace Formats

variable (formats : Formats)

/-- `serde_json::from_slice` to a type of the program, without its error. -/
def read {α : Type} [Serde α] (bytes : List UInt8) : Option α :=
  match formats.fromSlice bytes with
  | .ok v => Serde.fromValue v
  | .error _ => none

/-- `parse_params_to_value`. -/
def parseParamsToValue (params : List UInt8) : Value :=
  match formats.fromSlice params with
  | .ok v => v
  | .error _ => (formats.fromCbor params).getD .null

theorem parseParamsToValue_of_ok {params : List UInt8} {v : Value}
    (read : formats.fromSlice params = .ok v) : formats.parseParamsToValue params = v := by
  rw [parseParamsToValue, read]

end Formats

/-- `Message::param`, of a parameter that is written as `value`. Parameters that are no object
are dropped. -/
def Message.param (formats : Formats) (msg : Message) (key : String) (value : Value) :
    Except String Message := do
  let map := if msg.params = [] then [] else match formats.fromSlice msg.params with
    | .ok (.object map) => map
    | _ => []
  let raw ← formats.toVec (.object (insert key value map))
  pure { msg with params := raw }

/-- The message that a service publishes about itself: its state is the parameter `payload`. -/
def statusMessage (formats : Formats) (stamp : Stamp) (method src : String) (payload : Value) :
    Option Message :=
  (((Message.new stamp method).withSrc src).param formats "payload" payload).toOption

/-- What the bridge reads from such a message. -/
theorem exists_statusMessage (formats : Formats) {payload : Value} (stamp : Stamp)
    (method src : String) (canonical : Canonical payload) :
    ∃ msg, statusMessage formats stamp method src payload = some msg ∧
      formats.parseParamsToValue msg.params = .object [("payload", payload)] := by
  have entries : ∀ e ∈ [("payload", payload)], Canonical e.2 := by
    simpa using canonical
  obtain ⟨bytes, written, read⟩ := formats.fromSlice_toVec (.object [("payload", payload)])
    (.object (List.pairwise_singleton _ _) entries)
  refine ⟨{ (Message.new stamp method).withSrc src with params := bytes }, ?_,
    formats.parseParamsToValue_of_ok read⟩
  change (formats.toVec (.object [("payload", payload)]) >>= _).toOption = _
  rw [written]
  rfl

/-- Formats that write and read text. -/
def textFormats : Formats where
  toVec v := .ok (asBytes (String.ofList (print v)))
  fromSlice bytes := match readText (fromUtf8Lossy bytes).toList with
    | some v => .ok v
    | none => .error "expected value"
  fromCbor _ := none
  fromSlice_toVec v canonical := by
    refine ⟨_, rfl, ?_⟩
    rw [fromUtf8Lossy_asBytes, String.toList_ofList,
      readText_of_renders (renders_print canonical).item_of_value]

/-! ### Texts of any form -/

/-- The bytes are those of a text that renders a value. -/
def IsText (bytes : List UInt8) : Prop :=
  ∃ v text, Renders (.item v) text ∧ bytes = asBytes (String.ofList text)

/-- `serde_json` as it reads texts that it has not written itself: all that render a value, and
no object that is cut short. -/
structure TextFormats extends Formats where
  fromSlice_of_renders {v : Value} {text : List Char} (renders : Renders (.item v) text) :
    fromSlice (asBytes (String.ofList text)) = .ok v
  fromSlice_take {fields : List (String × Value)} {text : List Char} {n : Nat}
    (renders : Renders (.value (.object fields)) text)
    (short : n < (asBytes (String.ofList text)).length) :
    ∃ e, fromSlice ((asBytes (String.ofList text)).take n) = .error e

theorem not_isText_take {fields : List (String × Value)} {text : List Char}
    (renders : Renders (.value (.object fields)) text) {n : Nat}
    (short : n < (asBytes (String.ofList text)).length) :
    ¬ IsText ((asBytes (String.ofList text)).take n) := by
  rintro ⟨v, cut, reads, same⟩
  have begins : asBytes (String.ofList cut) <+: asBytes (String.ofList text) := by
    rw [← same]
    exact List.take_prefix _ _
  rw [asBytes_isPrefix_iff, String.toList_ofList, String.toList_ofList] at begins
  obtain ⟨more, rfl⟩ := begins
  obtain rfl := renders.eq_nil_of_object reads
  have lengths := congrArg List.length same
  rw [List.length_take, List.append_nil] at lengths
  rw [List.append_nil] at short
  omega

theorem textFormats_of_renders {v : Value} {text : List Char} (renders : Renders (.item v) text) :
    textFormats.fromSlice (asBytes (String.ofList text)) = .ok v := by
  simp only [textFormats, fromUtf8Lossy_asBytes, String.toList_ofList, readText_of_renders renders]

open Classical in
/-- Formats that read the texts that render a value and nothing else. -/
noncomputable def grammarFormats : TextFormats where
  toVec := textFormats.toVec
  fromSlice bytes :=
    if IsText bytes then textFormats.fromSlice bytes else .error "EOF while parsing an object"
  fromCbor := textFormats.fromCbor
  fromSlice_toVec v canonical := by
    have renders := (renders_print canonical).item_of_value
    exact ⟨_, rfl, (if_pos ⟨v, _, renders, rfl⟩).trans (textFormats_of_renders renders)⟩
  fromSlice_of_renders renders :=
    (if_pos ⟨_, _, renders, rfl⟩).trans (textFormats_of_renders renders)
  fromSlice_take renders short := ⟨_, if_neg (not_isText_take renders short)⟩

end Stardust
