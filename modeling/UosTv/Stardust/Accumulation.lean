import UosTv.Stardust.Params

/-!
What several calls of `Message::param` make of the parameters of a message.

Each call reads what there is, sets one key and writes the whole object again, so the last value of
a key is what counts and other keys stay. Parameters that are no object are taken for an empty one,
such as those that `params_raw` attaches as CBOR: they are lost, and no call reports it
(`params_accumulate_iff`).
-/

namespace Stardust

open Rust SerdeJson

/-- A value that `serde_json` can hold: the keys of its objects grow, and its numbers are finite,
with one form each. -/
inductive Proper : Value → Prop
  | null : Proper .null
  | bool (b : Bool) : Proper (.bool b)
  | posInt (n : UInt64) : Proper (.number (.posInt n))
  | negInt (n : Int64) (negative : n.toInt < 0) : Proper (.number (.negInt n))
  | float (bits : UInt64) (finite : (bits >>> 52) &&& 0x7FF ≠ 0x7FF) : Proper (.number (.float bits))
  | string (s : String) : Proper (.string s)
  | array {vs : List Value} (items : ∀ v ∈ vs, Proper v) : Proper (.array vs)
  | object {es : List (String × Value)} (sorted : Sorted es) (entries : ∀ e ∈ es, Proper e.2) :
    Proper (.object es)

/-- `serde_json` as it reads what it has written itself, also fractions. No value has an empty
text. -/
structure PrintedFormats extends Formats where
  proper_of_fromSlice {bytes : List UInt8} {v : Value} (read : fromSlice bytes = .ok v) : Proper v
  fromSlice_of_toVec {bytes : List UInt8} {v : Value} (proper : Proper v)
    (written : toVec v = .ok bytes) : fromSlice bytes = .ok v
  fromSlice_nil : ∃ e, fromSlice [] = .error e

/-- The entries after some calls. -/
def setAll (entries calls : List (String × Value)) : List (String × Value) :=
  calls.foldl (fun m call => insert call.1 call.2 m) entries

namespace Message

variable (formats : Formats) (msg : Message)

/-- The calls one after the other, the first that fails being the last. -/
def params? (calls : List (String × Value)) : Except String Message :=
  calls.foldlM (fun msg call => msg.param formats call.1 call.2) msg

/-- The object that has been attached; none if there are other parameters. -/
def attached : Option (List (String × Value)) :=
  if msg.params = [] then some []
  else match formats.fromSlice msg.params with
    | .ok (.object entries) => some entries
    | _ => none

/-- All objects that the calls make of the entries can be written. -/
def Written (entries calls : List (String × Value)) : Prop :=
  ∀ some_calls, some_calls <+: calls → some_calls ≠ [] →
    ∃ bytes, formats.toVec (.object (setAll entries some_calls)) = .ok bytes

/-- The calls set their keys in the object that has been attached, the last call of a key counts,
and they fail if something else has been attached. -/
def Accumulates (calls : List (String × Value)) : Prop :=
  calls ≠ [] → match msg.attached formats with
  | some entries => ∀ msg', msg.params? formats calls = .ok msg' →
      ∃ result, formats.fromSlice msg'.params = .ok (.object result) ∧
        ∀ key, SerdeJson.get result key =
          (SerdeJson.get calls.reverse key).or (SerdeJson.get entries key)
  | none => ∃ e, msg.params? formats calls = .error e

end Message

/-! ### Setting keys -/

section Keys

variable {entries calls : List (String × Value)} {key : String} {v : Value}

theorem get_append {es es' : List (String × Value)} :
    SerdeJson.get (es ++ es') key = (SerdeJson.get es key).or (SerdeJson.get es' key) := by
  simp only [SerdeJson.get, List.find?_append]
  cases es.find? fun e => e.1 = key <;> rfl

/-- The last value of a key counts. -/
theorem get_setAll :
    SerdeJson.get (setAll entries calls) key =
      (SerdeJson.get calls.reverse key).or (SerdeJson.get entries key) := by
  induction calls generalizing entries with
  | nil => rfl
  | cons call calls ih =>
    have first : setAll entries (call :: calls) = setAll (insert call.1 call.2 entries) calls := rfl
    rw [first, ih, get_insert, List.reverse_cons, get_append, get_cons, get_nil]
    by_cases here : call.1 = key
    · simp [here]
    · simp [here]

theorem proper_insert (proper : Proper (.object entries)) (value : Proper v) :
    Proper (.object (insert key v entries)) := by
  cases proper with
  | object sorted items =>
    refine .object sorted.insert fun e mem => ?_
    rcases mem_insert mem with rfl | old
    · exact value
    · exact items e old

end Keys

/-! ### The calls -/

section Calls

variable {formats : PrintedFormats} {msg msg' : Message} {calls : List (String × Value)}
  {key : String} {v : Value}

/-- What a call starts from is what has been attached, or nothing. -/
theorem param_eq : msg.param formats.toFormats key v =
    (formats.toVec (.object (insert key v ((msg.attached formats.toFormats).getD [])))).map
      fun raw => { msg with params := raw } := by
  have entries : (msg.attached formats.toFormats).getD [] =
      if msg.params = [] then [] else match formats.fromSlice msg.params with
        | .ok (.object map) => map
        | _ => [] := by
    rw [Message.attached]
    split
    · rfl
    · split <;> rfl
  rw [Message.param, entries]
  rfl

theorem proper_attached : Proper (.object ((msg.attached formats.toFormats).getD [])) := by
  have empty : Proper (.object []) := .object List.Pairwise.nil (List.forall_mem_nil _)
  rw [Message.attached]
  split
  · exact empty
  · split
    · rename_i entries read
      exact formats.proper_of_fromSlice read
    · exact empty

theorem attached_of_read {entries : List (String × Value)}
    (read : formats.fromSlice msg.params = .ok (.object entries)) :
    msg.attached formats.toFormats = some entries := by
  have nonempty : msg.params ≠ [] := by
    intro empty
    obtain ⟨e, failed⟩ := formats.fromSlice_nil
    rw [empty] at read
    cases read.symm.trans failed
  rw [Message.attached, if_neg nonempty, read]

/-- A call fails with the writing, or its object is what is read afterwards. -/
theorem param_cases (msg : Message) (key : String) (value : Proper v) :
    (∃ e, formats.toVec (.object (insert key v ((msg.attached formats.toFormats).getD []))) = .error e ∧
      msg.param formats.toFormats key v = .error e) ∨
    ∃ bytes next,
      formats.toVec (.object (insert key v ((msg.attached formats.toFormats).getD []))) = .ok bytes ∧
      msg.param formats.toFormats key v = .ok next ∧
      formats.fromSlice next.params =
        .ok (.object (insert key v ((msg.attached formats.toFormats).getD []))) := by
  rw [param_eq]
  cases written : formats.toVec (.object (insert key v ((msg.attached formats.toFormats).getD []))) with
  | error e => exact .inl ⟨e, rfl, rfl⟩
  | ok bytes =>
    exact .inr ⟨bytes, { msg with params := bytes }, rfl, rfl,
      formats.fromSlice_of_toVec (proper_insert proper_attached value) written⟩

/-- What is read after some calls. -/
theorem read_params? (values : ∀ call ∈ calls, Proper call.2) (nonempty : calls ≠ [])
    (ok : msg.params? formats.toFormats calls = .ok msg') :
    formats.fromSlice msg'.params =
      .ok (.object (setAll ((msg.attached formats.toFormats).getD []) calls)) := by
  induction calls generalizing msg with
  | nil => exact absurd rfl nonempty
  | cons call calls ih =>
    obtain ⟨value, values⟩ := List.forall_mem_cons.mp values
    rw [Message.params?, List.foldlM_cons] at ok
    rcases param_cases msg call.1 value with
      ⟨e, -, failed⟩ | ⟨bytes, next, -, called, read⟩
    · rw [failed] at ok
      cases ok
    · rw [called] at ok
      by_cases last : calls = []
      · subst last
        cases ok
        exact read
      · have rest := ih values last ok
        rw [attached_of_read read] at rest
        exact rest

theorem written_cons {formats : Formats} {entries : List (String × Value)} {call : String × Value} :
    Message.Written formats entries (call :: calls) ↔
      (∃ bytes, formats.toVec (.object (insert call.1 call.2 entries)) = .ok bytes) ∧
        Message.Written formats (insert call.1 call.2 entries) calls := by
  constructor
  · intro written
    refine ⟨written [call] (List.prefix_append [call] calls) (List.cons_ne_nil _ _), ?_⟩
    intro first within nonempty
    exact written (call :: first) (List.cons_prefix_cons.mpr ⟨rfl, within⟩) (List.cons_ne_nil _ _)
  · rintro ⟨one, rest⟩ first within nonempty
    obtain ⟨c, cs, rfl⟩ := List.exists_cons_of_ne_nil nonempty
    obtain ⟨rfl, shorter⟩ := List.cons_prefix_cons.mp within
    by_cases last : cs = []
    · subst last
      exact one
    · exact rest cs shorter last

/-- The calls succeed iff all their objects can be written. -/
theorem params?_ok_iff (values : ∀ call ∈ calls, Proper call.2) :
    (∃ msg', msg.params? formats.toFormats calls = .ok msg') ↔
      Message.Written formats.toFormats ((msg.attached formats.toFormats).getD []) calls := by
  induction calls generalizing msg with
  | nil =>
    refine iff_of_true ⟨msg, rfl⟩ fun first within nonempty => ?_
    exact absurd (List.prefix_nil.mp within) nonempty
  | cons call calls ih =>
    obtain ⟨value, values⟩ := List.forall_mem_cons.mp values
    rw [written_cons, Message.params?, List.foldlM_cons]
    rcases param_cases msg call.1 value with
      ⟨e, unwritten, failed⟩ | ⟨bytes, next, written, called, read⟩
    · rw [unwritten, failed]
      refine iff_of_false ?_ ?_
      · rintro ⟨msg', ⟨⟩⟩
      · rintro ⟨⟨bytes, ⟨⟩⟩, -⟩
    · rw [written, called, and_iff_right ⟨bytes, rfl⟩]
      have rest : (∃ msg', next.params? formats.toFormats calls = .ok msg') ↔
          Message.Written formats.toFormats ((next.attached formats.toFormats).getD []) calls :=
        ih values
      rw [attached_of_read read] at rest
      exact rest

end Calls

/-- **Parameters accumulate, and other parameters are refused, iff** the parameters that have been
attached are empty or an object, or the objects of the calls alone cannot be written either. -/
theorem params_accumulate_iff (formats : PrintedFormats) (msg : Message)
    (calls : List (String × Value)) (values : ∀ call ∈ calls, Proper call.2) :
    msg.Accumulates formats.toFormats calls ↔
      calls = [] ∨ (msg.attached formats.toFormats).isSome ∨
        ¬ Message.Written formats.toFormats [] calls := by
  by_cases none_called : calls = []
  · exact iff_of_true (fun called => absurd none_called called) (.inl none_called)
  rw [Message.Accumulates, or_iff_right none_called]
  cases attached : msg.attached formats.toFormats with
  | some entries =>
    refine iff_of_true (fun _ msg' ok => ?_) (.inl rfl)
    have read := read_params? values none_called ok
    rw [attached] at read
    exact ⟨_, read, fun key => get_setAll⟩
  | none =>
    have succeeds : (∃ msg', msg.params? formats.toFormats calls = .ok msg') ↔
        Message.Written formats.toFormats ((msg.attached formats.toFormats).getD []) calls :=
      params?_ok_iff values
    rw [attached, Option.getD_none] at succeeds
    rw [or_iff_right (by simp), ← succeeds]
    constructor
    · rintro fails ⟨msg', ok⟩
      obtain ⟨e, failed⟩ := fails none_called
      cases ok.symm.trans failed
    · intro fails _
      cases ran : msg.params? formats.toFormats calls with
      | error e => exact ⟨e, rfl⟩
      | ok msg' => exact absurd ⟨msg', ran⟩ fails

/-- The bytes are those of the text that `serde_json` writes for a value without fractions. -/
def IsPrinted (bytes : List UInt8) : Prop :=
  ∃ v, Canonical v ∧ bytes = asBytes (String.ofList (print v))

theorem read_of_isPrinted {v : Value} (canonical : Canonical v) :
    textFormats.fromSlice (asBytes (String.ofList (print v))) = .ok v :=
  textFormats_of_renders (renders_print canonical).item_of_value

theorem Proper.of_canonical {v : Value} (canonical : Canonical v) : Proper v := by
  induction canonical with
  | null => exact .null
  | bool b => exact .bool b
  | posInt n => exact .posInt n
  | negInt n negative => exact .negInt n negative
  | string s => exact .string s
  | array items ih => exact .array ih
  | object sorted entries ih => exact .object sorted ih

open Classical in
/-- Formats that write the values without fractions, and read what they write. -/
noncomputable def printedFormats : PrintedFormats where
  toVec v :=
    if Canonical v then .ok (asBytes (String.ofList (print v))) else .error "not implemented"
  fromSlice bytes :=
    if IsPrinted bytes then textFormats.fromSlice bytes else .error "expected value"
  fromCbor := textFormats.fromCbor
  fromSlice_toVec v canonical :=
    ⟨_, if_pos canonical, (if_pos ⟨v, canonical, rfl⟩).trans (read_of_isPrinted canonical)⟩
  proper_of_fromSlice {bytes v} read := by
    by_cases printed : IsPrinted bytes
    · rw [if_pos printed] at read
      obtain ⟨v', canonical, rfl⟩ := printed
      rw [read_of_isPrinted canonical] at read
      exact Except.ok.inj read ▸ .of_canonical canonical
    · rw [if_neg printed] at read
      cases read
  fromSlice_of_toVec {bytes v} proper written := by
    by_cases canonical : Canonical v
    · rw [if_pos canonical] at written
      obtain rfl := Except.ok.inj written
      exact (if_pos ⟨v, canonical, rfl⟩).trans (read_of_isPrinted canonical)
    · rw [if_neg canonical] at written
      cases written
  fromSlice_nil := by
    refine ⟨"expected value", if_neg ?_⟩
    rintro ⟨v, canonical, empty⟩
    have read := read_of_isPrinted canonical
    rw [← empty] at read
    cases read

theorem params_accumulate_test :
    (Message.new ⟨0, 0⟩ "topic").Accumulates printedFormats.toFormats
      [("key1", .string "val1"), ("key2", .string "val2")] := by
  refine (params_accumulate_iff printedFormats _ _ ?_).mpr (.inr (.inl rfl))
  simp only [List.forall_mem_cons]
  exact ⟨.string _, .string _, List.forall_mem_nil _⟩

/-- The parameters `{}` in CBOR. A call succeeds, and only its own key is left. -/
theorem params_raw_lost :
    (∃ msg', ((Message.new ⟨0, 0⟩ "topic").paramsRaw [0xA0]).params? printedFormats.toFormats
        [("key1", .string "val1")] = .ok msg' ∧
      printedFormats.fromSlice msg'.params = .ok (.object [("key1", .string "val1")])) ∧
    ¬ ((Message.new ⟨0, 0⟩ "topic").paramsRaw [0xA0]).Accumulates printedFormats.toFormats
      [("key1", .string "val1")] := by
  have refused : ∃ e, printedFormats.fromSlice [0xA0] = .error e := by
    by_cases printed : IsPrinted [0xA0]
    · exact ⟨"expected value", if_pos printed⟩
    · exact ⟨"expected value", if_neg printed⟩
  have unread : ((Message.new ⟨0, 0⟩ "topic").paramsRaw [0xA0]).attached printedFormats.toFormats =
      none := by
    obtain ⟨e, refused⟩ := refused
    have params : ((Message.new ⟨0, 0⟩ "topic").paramsRaw [0xA0]).params = [0xA0] := rfl
    rw [Message.attached, params, if_neg (List.cons_ne_nil _ _), refused]
  have values : ∀ call ∈ [("key1", Value.string "val1")], Proper call.2 := by
    simpa using Proper.string "val1"
  have canonical : Canonical (.object [("key1", .string "val1")]) :=
    .object (List.pairwise_singleton _ _) (by simpa using Canonical.string "val1")
  have written : Message.Written printedFormats.toFormats [] [("key1", .string "val1")] := by
    refine written_cons.mpr ⟨⟨_, if_pos canonical⟩, fun first within nonempty => ?_⟩
    exact absurd (List.prefix_nil.mp within) nonempty
  have succeeds : (∃ msg', ((Message.new ⟨0, 0⟩ "topic").paramsRaw [0xA0]).params?
      printedFormats.toFormats [("key1", .string "val1")] = .ok msg') := by
    refine (params?_ok_iff values).mpr ?_
    rw [unread]
    exact written
  obtain ⟨msg', ok⟩ := succeeds
  have read := read_params? values (by simp) ok
  rw [unread] at read
  refine ⟨⟨msg', ok, read⟩, fun accumulates => ?_⟩
  rw [Message.Accumulates, unread] at accumulates
  obtain ⟨e, failed⟩ := accumulates (by simp)
  cases ok.symm.trans failed

end Stardust
