import UosTv.Serde.JsonReader

/-!
Texts of objects that are cut short.

The text of an object ends with its last brace, so what is left of it when some of its end is
missing is the text of no value (`Renders.eq_nil_of_object`).
-/

namespace SerdeJson

variable {fields : List (String × Value)} {text inner cut more : List Char} {v : Value} {fuel : Nat}

theorem readValue_brace : readValue (fuel + 1) ('{' :: text) =
    (readWithin '}' (readEntry (readValue fuel)) text).map fun r => (.object (collect r.1), r.2) :=
  rfl

theorem exists_brace (renders : Renders (.value (.object fields)) text) :
    ∃ inner, text = '{' :: inner := by
  cases renders with
  | object sorted perm entries => exact ⟨_, rfl⟩

/-- An object is read whatever follows it. -/
theorem readValue_object (renders : Renders (.value (.object fields)) text) (rest : List Char)
    (enough : text.length ≤ fuel) : readValue fuel (text ++ rest) = some (.object fields, rest) := by
  cases renders with
  | @object _ es inner sorted perm entries =>
    cases fuel with
    | zero => cases enough
    | succ fuel =>
      simp only [List.length_cons, List.length_append] at enough
      have read := (read_of_renders entries fuel (by omega) rest).1
      rw [List.cons_append, List.append_assoc, List.singleton_append, readValue_brace, read,
        Option.map_some, collect_of_perm sorted perm]

/-- What begins with a brace is an object. -/
theorem object_of_brace (renders : Renders (.value v) ('{' :: inner)) :
    ∃ fields, v = .object fields := by
  have read := (read_of_renders renders).2 (inner.length + 1) [] (Nat.le_refl _) (by rintro _ ⟨⟩)
  rw [List.append_nil, readValue_brace] at read
  obtain ⟨out, -, same⟩ := Option.map_eq_some_iff.mp read
  exact ⟨_, (Prod.mk.inj same).1.symm⟩

/-- A text that renders a value is the beginning of the text of an object only if it is all of
it. -/
theorem Renders.eq_nil_of_object (whole : Renders (.value (.object fields)) (cut ++ more))
    (renders : Renders (.item v) cut) : more = [] := by
  cases renders with
  | @item _ before text after spaces value spaces' =>
    obtain ⟨⟨c, inner, rfl, -⟩, -⟩ := read_of_renders value
    obtain ⟨rest, split⟩ := exists_brace whole
    cases before with
    | cons s before =>
      obtain ⟨rfl, -⟩ := List.cons.inj split
      simp [isSpace] at spaces
    | nil =>
      obtain ⟨rfl, -⟩ := List.cons.inj split
      obtain ⟨others, rfl⟩ := object_of_brace value
      have read := readValue_object whole [] (Nat.le_refl _)
      rw [List.nil_append, List.append_nil, List.append_assoc,
        readValue_object value _ (by simp)] at read
      have ends := (Prod.mk.inj (Option.some.inj read)).2
      exact (List.append_eq_nil_iff.mp ends).2

end SerdeJson
