import UosTv.Serde.JsonBytes

/-!
What `serde_json` writes is one line: it has no control characters in it.
-/

namespace SerdeJson

open Rust

/-- There are no control characters below U+0020. -/
def Visible (cs : List Char) : Prop := ∀ c ∈ cs, 32 ≤ c.toNat

theorem visible_digits (n : Nat) : Visible (digits n) := by
  intro c mem
  have digit := toNat_of_isDigit (isDigit_of_mem_digits mem)
  omega

theorem visible_hexDigit {n : Nat} (small : n < 16) : 32 ≤ (hexDigit n).toNat := by
  have table : ∀ n < 16, 32 ≤ (hexDigit n).toNat := by decide
  exact table n small

theorem visible_escapeChar (c : Char) : Visible (escapeChar c) := by
  have step {p : Prop} [Decidable p] {one other : List Char} (yes : p → Visible one)
      (no : ¬ p → Visible other) : Visible (if p then one else other) :=
    iteInduction (motive := Visible) yes no
  have word {cs : List Char} (all : cs.all (32 ≤ ·.toNat)) : Visible cs := by
    simpa [Visible] using all
  unfold escapeChar
  iterate 7
    refine step (fun _ => word (by decide)) fun _ => ?_
  refine step (fun small => ?_) fun visible => ?_
  · simp only [Visible, List.forall_mem_cons]
    exact ⟨by decide, by decide, by decide, by decide, visible_hexDigit (by omega),
      visible_hexDigit (by omega), List.forall_mem_nil _⟩
  · exact List.forall_mem_singleton.mpr (Nat.le_of_not_lt visible)

theorem Visible.append {cs ds : List Char} (first : Visible cs) (second : Visible ds) :
    Visible (cs ++ ds) :=
  List.forall_mem_append.mpr ⟨first, second⟩

theorem Visible.cons {c : Char} {cs : List Char} (first : 32 ≤ c.toNat) (visible : Visible cs) :
    Visible (c :: cs) :=
  List.forall_mem_cons.mpr ⟨first, visible⟩

/-- A text in brackets. -/
theorem Visible.within {c d : Char} {cs : List Char} (first : 32 ≤ c.toNat) (visible : Visible cs)
    (last : 32 ≤ d.toNat) : Visible (c :: (cs ++ [d])) :=
  .cons first (visible.append (List.forall_mem_singleton.mpr last))

theorem visible_nil : Visible [] := List.forall_mem_nil _

theorem visible_quoted (s : String) : Visible (quoted s).toList := by
  rw [quoted, String.toList_ofList]
  refine Visible.within (by decide) ?_ (by decide)
  intro c mem
  obtain ⟨d, -, escaped⟩ := List.mem_flatMap.mp mem
  exact visible_escapeChar d c escaped

theorem visible_printItems {vs : List Value} (items : ∀ v ∈ vs, Visible (print v)) :
    Visible (printItems vs) := by
  induction vs with
  | nil => exact visible_nil
  | cons v vs ih =>
    obtain ⟨first, others⟩ := List.forall_mem_cons.mp items
    cases vs with
    | nil => exact first
    | cons w vs => exact first.append (.cons (by decide) (ih others))

theorem visible_printEntries {es : List (String × Value)}
    (entries : ∀ e ∈ es, Visible (print e.2)) : Visible (printEntries es) := by
  induction es with
  | nil => exact visible_nil
  | cons e es ih =>
    obtain ⟨first, others⟩ := List.forall_mem_cons.mp entries
    have entry : Visible ((quoted e.1).toList ++ ':' :: print e.2) :=
      (visible_quoted e.1).append (.cons (by decide) first)
    cases es with
    | nil => exact entry
    | cons e' es => exact entry.append (.cons (by decide) (ih others))

theorem visible_print {v : Value} (canonical : Canonical v) : Visible (print v) := by
  have word {cs : List Char} (all : cs.all (32 ≤ ·.toNat)) : Visible cs := by
    simpa [Visible] using all
  induction canonical with
  | null => exact word (by decide)
  | bool b => cases b <;> exact word (by decide)
  | posInt n => exact visible_digits _
  | negInt n negative => exact .cons (by decide) (visible_digits _)
  | string s => exact visible_quoted s
  | array items ih => exact .within (by decide) (visible_printItems ih) (by decide)
  | object sorted entries ih => exact .within (by decide) (visible_printEntries ih) (by decide)

/-- The bytes of such a character are none of control characters. -/
theorem le_of_mem_utf8EncodeChar {c : Char} {b : UInt8} (visible : 32 ≤ c.toNat)
    (mem : b ∈ String.utf8EncodeChar c) : 32 ≤ b.toNat := by
  have byte {n : Nat} (large : 32 ≤ n) (small : n < 256) : 32 ≤ (UInt8.ofNat n).toNat := by
    rwa [UInt8.toNat_ofNat_of_lt' small]
  change 32 ≤ c.val.toNat at visible
  unfold String.utf8EncodeChar at mem
  generalize c.val.toNat = v at visible mem
  dsimp only at mem
  split at mem
  · simp only [List.mem_singleton] at mem
    subst mem
    exact byte visible (by omega)
  split at mem
  · simp only [List.mem_cons, List.not_mem_nil, or_false] at mem
    rcases mem with rfl | rfl <;> exact byte (by omega) (by omega)
  split at mem
  · simp only [List.mem_cons, List.not_mem_nil, or_false] at mem
    rcases mem with rfl | rfl | rfl <;> exact byte (by omega) (by omega)
  · simp only [List.mem_cons, List.not_mem_nil, or_false] at mem
    rcases mem with rfl | rfl | rfl | rfl <;> exact byte (by omega) (by omega)

theorem newline_not_mem_utf8 {cs : List Char} (visible : Visible cs) : 10 ∉ utf8 cs := by
  intro mem
  rw [utf8, asBytes, String.toList_ofList] at mem
  obtain ⟨c, char, byte⟩ := List.mem_flatMap.mp mem
  exact absurd (le_of_mem_utf8EncodeChar (visible c char) byte) (by decide)

theorem readUtf8_of_renders {v : Value} {cs : List Char} (renders : Renders (.item v) cs) :
    readUtf8 (utf8 cs) = some v := by
  have chars : (fromUtf8Lossy (utf8 cs)).toList = cs := by
    rw [utf8, fromUtf8Lossy_asBytes, String.toList_ofList]
  rw [readUtf8, chars, if_pos rfl, readText_of_renders renders]

end SerdeJson
