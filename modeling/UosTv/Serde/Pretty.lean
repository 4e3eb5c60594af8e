import UosTv.Serde.Derive

/-!
Texts with one entry or item a line, as `serde_json::to_vec_pretty` writes them.

The entries of an object are written in the order given: those of a value in the order of their
keys (`pretty`), the fields of a structure in that of their declaration (`prettyRecord`).
-/

namespace SerdeJson

/-- The beginning of a line, at some depth. -/
def newline (depth : Nat) : List Char := '\n' :: List.replicate (2 * depth) ' '

/-- The entries of an object, each with the text of its value. -/
def prettyEntries (depth : Nat) : List (String × List Char) → List Char
  | [] => []
  | [(key, text)] => newline depth ++ ((quoted key).toList ++ ':' :: ' ' :: text)
  | (key, text) :: e :: es =>
    newline depth ++ ((quoted key).toList ++ ':' :: ' ' :: text) ++ ',' :: prettyEntries depth (e :: es)

/-- An object that begins at some depth. -/
def prettyObject (depth : Nat) : List (String × List Char) → List Char
  | [] => "{}".toList
  | e :: es => '{' :: (prettyEntries (depth + 1) (e :: es) ++ newline depth ++ ['}'])

/-- The items of an array, each with its text. -/
def prettyItems (depth : Nat) : List (List Char) → List Char
  | [] => []
  | [text] => newline depth ++ text
  | text :: next :: rest => newline depth ++ text ++ ',' :: prettyItems depth (next :: rest)

/-- An array that begins at some depth. -/
def prettyArray (depth : Nat) : List (List Char) → List Char
  | [] => "[]".toList
  | text :: rest => '[' :: (prettyItems (depth + 1) (text :: rest) ++ newline depth ++ [']'])

mutual

/-- A value that begins at some depth. -/
def pretty (depth : Nat) : Value → List Char
  | .array vs => prettyArray depth (prettyAll (depth + 1) vs)
  | .object es => prettyObject depth (prettyFields (depth + 1) es)
  | .null => print .null
  | .bool b => print (.bool b)
  | .number n => print (.number n)
  | .string s => print (.string s)

def prettyAll (depth : Nat) : List Value → List (List Char)
  | [] => []
  | v :: vs => pretty depth v :: prettyAll depth vs

def prettyFields (depth : Nat) : List (String × Value) → List (String × List Char)
  | [] => []
  | (key, v) :: es => (key, pretty depth v) :: prettyFields depth es

end

/-- A structure, with its fields in the order of their declaration. -/
def prettyRecord (depth : Nat) (fields : List (String × Value)) : List Char :=
  prettyObject depth (prettyFields (depth + 1) fields)

theorem isSpace_newline (depth : Nat) : (newline depth).all isSpace := by
  rw [newline, List.all_cons, List.all_replicate]
  split <;> decide

variable {α : Type} {key : α → String} {value : α → Value} {text : α → List Char} {as : List α}

/-- The last entry is followed by the beginning of the line of the closing brace. -/
theorem renders_prettyEntries (depth depth' : Nat)
    (renders : ∀ a ∈ as, Renders (.value (value a)) (text a)) :
    Renders (.entries (as.map fun a => (key a, value a)))
      (prettyEntries depth (as.map fun a => (key a, text a)) ++ newline depth') := by
  have entry : ∀ a ∈ as, ∀ after, after.all isSpace → Renders (.entry (key a) (value a))
      (newline depth ++ ((quoted (key a)).toList ++ ':' :: ' ' :: text a) ++ after) := by
    intro a mem after blank
    have item : Renders (.item (value a)) ([' '] ++ (text a ++ after)) :=
      .item (by decide) (renders a mem) blank
    have whole : Renders (.entry (key a) (value a))
        (newline depth ++ ((quoted (key a)).toList ++ ([] ++ ':' :: ([' '] ++ (text a ++ after))))) :=
      .entry (isSpace_newline depth) rfl item
    simpa using whole
  induction as with
  | nil => exact .noEntries (isSpace_newline depth')
  | cons a as ih =>
    obtain ⟨first, others⟩ := List.forall_mem_cons.mp entry
    cases as with
    | nil => exact .lastEntry (first _ (isSpace_newline depth'))
    | cons b as =>
      have here := first [] rfl
      rw [List.append_nil] at here
      have whole := here.moreEntries (ih (fun a mem => renders a (List.mem_cons_of_mem _ mem)) others)
      simpa [prettyEntries] using whole

/-- What is written of an object renders it, in whatever order its entries are. -/
theorem renders_prettyObject (depth : Nat) {fields : List (String × Value)} (sorted : Sorted fields)
    (perm : (as.map fun a => (key a, value a)).Perm fields)
    (renders : ∀ a ∈ as, Renders (.value (value a)) (text a)) :
    Renders (.value (.object fields)) (prettyObject depth (as.map fun a => (key a, text a))) := by
  cases as with
  | nil =>
    have entries : Renders (.entries []) [] := .noEntries rfl
    exact .object sorted perm entries
  | cons a as =>
    have entries : Renders (.entries ((a :: as).map fun a => (key a, value a))) _ :=
      renders_prettyEntries (depth + 1) depth renders
    exact .object sorted perm entries

theorem renders_prettyItems (depth depth' : Nat)
    (renders : ∀ a ∈ as, Renders (.value (value a)) (text a)) :
    Renders (.items (as.map value)) (prettyItems depth (as.map text) ++ newline depth') := by
  have item : ∀ a ∈ as, ∀ after, after.all isSpace →
      Renders (.item (value a)) (newline depth ++ text a ++ after) := by
    intro a mem after blank
    rw [List.append_assoc]
    exact .item (isSpace_newline depth) (renders a mem) blank
  induction as with
  | nil => exact .noItems (isSpace_newline depth')
  | cons a as ih =>
    obtain ⟨first, others⟩ := List.forall_mem_cons.mp item
    cases as with
    | nil => exact .lastItem (first _ (isSpace_newline depth'))
    | cons b as =>
      have here := first [] rfl
      rw [List.append_nil] at here
      have whole := here.moreItems (ih (fun a mem => renders a (List.mem_cons_of_mem _ mem)) others)
      simpa [prettyItems] using whole

/-- What is written of an array renders it. -/
theorem renders_prettyArray (depth : Nat)
    (renders : ∀ a ∈ as, Renders (.value (value a)) (text a)) :
    Renders (.value (.array (as.map value))) (prettyArray depth (as.map text)) := by
  cases as with
  | nil =>
    have items : Renders (.items []) [] := .noItems rfl
    exact .array items
  | cons a as =>
    have items := renders_prettyItems (depth + 1) depth renders
    exact .array items

/-! ### Values -/

theorem prettyAll_eq (depth : Nat) (vs : List Value) : prettyAll depth vs = vs.map (pretty depth) := by
  induction vs with
  | nil => rw [prettyAll, List.map_nil]
  | cons v vs ih => rw [prettyAll, List.map_cons, ih]

theorem prettyFields_eq (depth : Nat) (es : List (String × Value)) :
    prettyFields depth es = es.map fun e => (e.1, pretty depth e.2) := by
  induction es with
  | nil => rw [prettyFields, List.map_nil]
  | cons e es ih => rw [prettyFields, List.map_cons, ih]

theorem renders_prettyFields (depth : Nat) {fields es : List (String × Value)} (sorted : Sorted fields)
    (perm : es.Perm fields) (renders : ∀ e ∈ es, Renders (.value e.2) (pretty (depth + 1) e.2)) :
    Renders (.value (.object fields)) (prettyRecord depth es) := by
  have same : (es.map fun e => (e.1, e.2)).Perm fields := by
    rwa [List.map_id']
  have object := renders_prettyObject depth sorted same renders
  rwa [← prettyFields_eq] at object

/-- What is written of a value renders it. -/
theorem renders_pretty {v : Value} (canonical : Canonical v) (depth : Nat) :
    Renders (.value v) (pretty depth v) := by
  induction canonical generalizing depth with
  | null =>
    rw [pretty]
    exact renders_print .null
  | bool b =>
    rw [pretty]
    exact renders_print (.bool b)
  | posInt n =>
    rw [pretty]
    exact renders_print (.posInt n)
  | negInt n negative =>
    rw [pretty]
    exact renders_print (.negInt n negative)
  | string s =>
    rw [pretty]
    exact renders_print (.string s)
  | @array vs items ih =>
    have array := renders_prettyArray depth fun v mem => ih v mem (depth + 1)
    rwa [List.map_id', ← prettyAll_eq, ← pretty] at array
  | @object es sorted entries ih =>
    have object := renders_prettyFields depth sorted (.refl es) fun e mem => ih e mem (depth + 1)
    rwa [prettyRecord, ← pretty] at object

/-- What is written of a structure renders it. -/
theorem renders_prettyRecord (depth : Nat) {fields : List (String × Value)}
    (entries : ∀ e ∈ fields, Canonical e.2) (distinct : (fields.map (·.1)).Nodup) :
    Renders (.value (record fields)) (prettyRecord depth fields) :=
  renders_prettyFields depth sorted_collect (collect_perm distinct).symm fun e mem =>
    renders_pretty (entries e mem) (depth + 1)

end SerdeJson
