import UosTv.Rust.FileTree

/-!
`Path::canonicalize`: the place that a path leads to, with no link on the way.

A canonical path leads to itself (`resolve_text`), and names that are put behind the path of a
directory lead to what is below it (`canonicalize_join`).
-/

namespace Rust.FileTree

variable (t : FileTree)

/-- The text of an absolute path. -/
def text (p : Path) : String := "/" ++ String.intercalate (String.singleton '/') p

/-- `Path::canonicalize`, where everything may be looked at. -/
def canonicalize (cwd : Path) (path : String) : Option Path := t.resolve cwd true path

/-- `Path::is_file` of a canonical path. -/
def isFile (p : Path) : Bool :=
  (t.resolve [] true (text p)).any fun q => t.node q = some .file

/-- A directory under names that stand for themselves. -/
structure Dir (p : Path) : Prop where
  names : ∀ c ∈ p, Normal c
  found : t.node p = some .dir

/-- A place that is reached without a link. -/
structure Canonical (p : Path) : Prop where
  names : ∀ c ∈ p, Normal c
  found : t.node p = some .dir ∨ t.node p = some .file

section Places

variable {t : FileTree} {cwd here p q : Path} {c : String} {cs names : List String}

theorem node_root : t.node [] = some .dir := if_pos rfl

theorem dir_root : t.Dir [] := ⟨List.forall_mem_nil _, node_root⟩

theorem Dir.canonical (dir : t.Dir p) : t.Canonical p := ⟨dir.names, .inl dir.found⟩

/-- Everything is in a directory. -/
theorem node_of_concat (found : t.node (here ++ [c]) ≠ none) : t.node here = some .dir := by
  by_cases root : here = []
  · subst root
    exact node_root
  · rw [node, if_neg (List.append_ne_nil_of_right_ne_nil _ (List.cons_ne_nil _ _))] at found
    rw [node, if_neg root]
    exact t.closed root found

/-- On the way to what there is are directories. -/
theorem node_of_append (found : t.node (here ++ names) ≠ none) (below : names ≠ []) :
    t.node here = some .dir := by
  induction names using List.reverseRecOn with
  | nil => exact absurd rfl below
  | append_singleton names c ih =>
    rw [← List.append_assoc] at found
    have dir := node_of_concat found
    by_cases last : names = []
    · rwa [last, List.append_nil] at dir
    · exact ih (by rw [dir]; exact Option.some_ne_none _) last

theorem Dir.dropLast (dir : t.Dir here) : t.Dir here.dropLast := by
  refine ⟨fun c mem => dir.names c (List.mem_of_mem_dropLast mem), ?_⟩
  by_cases root : here = []
  · rw [root]
    exact node_root
  · have found : t.node (here.dropLast ++ [here.getLast root]) ≠ none := by
      rw [List.dropLast_concat_getLast, dir.found]
      exact Option.some_ne_none _
    exact node_of_concat found

theorem Dir.concat (dir : t.Dir here) (normal : Normal c) (found : t.node (here ++ [c]) = some .dir) :
    t.Dir (here ++ [c]) :=
  ⟨List.forall_mem_append.mpr ⟨dir.names, List.forall_mem_singleton.mpr normal⟩, found⟩

theorem not_of_mem_splitOnP {α : Type*} {p : α → Bool} {as part : List α}
    (mem : part ∈ as.splitOnP p) : ∀ a ∈ part, p a = false := by
  induction as generalizing part with
  | nil =>
    rw [List.splitOnP_nil, List.mem_singleton] at mem
    subst mem
    exact List.forall_mem_nil _
  | cons a as ih =>
    obtain ⟨first, rest, parts⟩ := List.exists_cons_of_ne_nil (List.splitOnP_ne_nil p as)
    rw [List.splitOnP_cons_eq_if_modifyHead] at mem
    rw [parts] at mem ih
    split at mem
    · rcases List.mem_cons.mp mem with rfl | mem
      · exact List.forall_mem_nil _
      · exact ih mem
    · rename_i other
      rcases List.mem_cons.mp mem with rfl | mem
      · exact List.forall_mem_cons.mpr ⟨Bool.eq_false_iff.mpr other, ih List.mem_cons_self⟩
      · exact ih (List.mem_cons_of_mem _ mem)

/-- The parts of a path are without slashes. -/
theorem slash_not_mem_split {s : String} : ∀ c ∈ split s '/', '/' ∉ c.toList := by
  intro c mem slash
  obtain ⟨part, member, rfl⟩ := List.mem_map.mp mem
  rw [String.toList_ofList] at slash
  have other := not_of_mem_splitOnP member '/' slash
  exact absurd other (by decide)

/-- A place from which the walk goes on is a directory, and so it ends in a canonical one. -/
theorem walkWith_canonical {followLink : Path → List String → Option Path}
    (links : ∀ here cs p, t.Dir here → (∀ c ∈ cs, '/' ∉ c.toList) →
      followLink here cs = some p → t.Canonical p)
    (dir : t.Dir here) (single : ∀ c ∈ cs, '/' ∉ c.toList)
    (walked : t.walkWith followLink true here cs = some p) : t.Canonical p := by
  induction cs generalizing here with
  | nil =>
    cases walked
    exact dir.canonical
  | cons c cs ih =>
    obtain ⟨one, single⟩ := List.forall_mem_cons.mp single
    rw [walkWith] at walked
    by_cases stays : c = "" ∨ c = "."
    · rw [if_pos stays] at walked
      exact ih dir single walked
    rw [if_neg stays] at walked
    by_cases up : c = ".."
    · rw [if_pos up] at walked
      exact ih dir.dropLast single walked
    rw [if_neg up] at walked
    obtain ⟨nonempty, notHere⟩ := not_or.mp stays
    have normal : Normal c := ⟨nonempty, notHere, up, one⟩
    cases found : t.node (here ++ [c]) with
    | none => rw [found] at walked; cases walked
    | some node =>
      rw [found] at walked
      cases node with
      | dir => exact ih (dir.concat normal found) single walked
      | file =>
        simp only [Option.ite_none_right_eq_some, Option.some.injEq] at walked
        obtain ⟨-, rfl⟩ := walked
        exact ⟨List.forall_mem_append.mpr ⟨dir.names, List.forall_mem_singleton.mpr normal⟩,
          .inr found⟩
      | link target =>
        simp only [Bool.true_eq_false, and_false, if_false] at walked
        refine links _ _ p ?_ ?_ walked
        · split
          · exact dir_root
          · exact dir
        · exact List.forall_mem_append.mpr ⟨slash_not_mem_split, single⟩

theorem walk_canonical {links : Nat} (dir : t.Dir here) (single : ∀ c ∈ cs, '/' ∉ c.toList)
    (walked : t.walk true links here cs = some p) : t.Canonical p := by
  induction links generalizing here cs p with
  | zero => exact walkWith_canonical (by rintro _ _ _ _ _ ⟨⟩) dir single walked
  | succ links ih => exact walkWith_canonical (fun _ _ _ => ih) dir single walked

theorem dir_origin {path : String} (dir : t.Dir cwd) : t.Dir (origin cwd path) := by
  unfold origin
  split
  · exact dir_root
  · exact dir

/-- What a path leads to is reached without a link. -/
theorem canonicalize_canonical {path : String} (dir : t.Dir cwd)
    (found : t.canonicalize cwd path = some p) : t.Canonical p := by
  rw [canonicalize, resolve] at found
  split at found
  · cases found
  · exact walk_canonical (dir_origin dir) slash_not_mem_split found

/-! ### Names -/

/-- Where there are no links, names lead to what is below. -/
theorem walkWith_names {followLink : Path → List String → Option Path} {follow : Bool}
    (normal : ∀ c ∈ names, Normal c)
    (found : t.node (here ++ names) = some .dir ∨ t.node (here ++ names) = some .file) :
    t.walkWith followLink follow here names = some (here ++ names) := by
  induction names generalizing here with
  | nil => rw [walkWith, List.append_nil]
  | cons c names ih =>
    obtain ⟨first, normal⟩ := List.forall_mem_cons.mp normal
    have parts : here ++ c :: names = here ++ [c] ++ names := by simp
    rw [parts] at found ⊢
    rw [walkWith, if_neg (not_or.mpr ⟨first.nonempty, first.notHere⟩), if_neg first.notUp]
    by_cases last : names = []
    · subst last
      rw [List.append_nil] at found ⊢
      rcases found with dir | file
      · rw [dir]
        rfl
      · rw [file]
        exact if_pos rfl
    · have there : t.node (here ++ [c] ++ names) ≠ none := by
        rcases found with dir | file
        · rw [dir]; exact Option.some_ne_none _
        · rw [file]; exact Option.some_ne_none _
      rw [node_of_append there last]
      exact ih normal found

theorem walk_eq_walkWith (t : FileTree) (follow : Bool) (links : Nat) :
    ∃ followLink, t.walk follow links = t.walkWith followLink follow := by
  cases links with
  | zero => exact ⟨_, rfl⟩
  | succ links => exact ⟨_, rfl⟩

/-- A canonical path leads to itself. -/
theorem resolve_text {follow : Bool} (canonical : t.Canonical p) :
    t.resolve cwd follow (text p) = some p := by
  have absolute : startsWith (text p) "/" = true := startsWith_append _ _
  have nonempty : text p ≠ "" := by
    intro empty
    rw [empty] at absolute
    exact absurd absolute (by decide)
  have parts : split (text p) '/' =
      "" :: split (String.intercalate (String.singleton '/') p) '/' :=
    split_append_slash "" _
  rw [resolve, if_neg nonempty, origin, if_pos absolute, parts]
  obtain ⟨followLink, same⟩ := walk_eq_walkWith t follow maxLinks
  rw [same, walkWith, if_pos (.inl rfl)]
  by_cases root : p = []
  · subst root
    exact walkWith_blank (by decide)
  · rw [split_intercalate root fun c mem => (canonical.names c mem).one]
    exact walkWith_names canonical.names canonical.found

theorem isFile_eq (canonical : t.Canonical p) : t.isFile p = decide (t.node p = some .file) := by
  rw [isFile, resolve_text canonical]
  rfl

/-- Behind the path of a directory, names lead to what is below it. -/
theorem walkWith_append {followLink followLink' : Path → List String → Option Path}
    {tail : List String} (normal : ∀ c ∈ names, Normal c) (below : names ≠ [])
    (found : t.node (q ++ names) = some .dir ∨ t.node (q ++ names) = some .file)
    (blank : ∀ c ∈ tail, c = "")
    (links : ∀ here cs, followLink here (cs ++ tail) = some q →
      followLink' here (cs ++ names) = some (q ++ names))
    (walked : t.walkWith followLink true here (cs ++ tail) = some q) :
    t.walkWith followLink' true here (cs ++ names) = some (q ++ names) := by
  induction cs generalizing here with
  | nil =>
    rw [List.nil_append, walkWith_blank blank] at walked
    cases walked
    exact walkWith_names normal found
  | cons c cs ih =>
    rw [List.cons_append, walkWith] at walked ⊢
    by_cases stays : c = "" ∨ c = "."
    · rw [if_pos stays] at walked ⊢
      exact ih walked
    rw [if_neg stays] at walked ⊢
    by_cases up : c = ".."
    · rw [if_pos up] at walked ⊢
      exact ih walked
    rw [if_neg up] at walked ⊢
    cases node : t.node (here ++ [c]) with
    | none => rw [node] at walked; cases walked
    | some kind =>
      rw [node] at walked
      cases kind with
      | dir => exact ih walked
      | file =>
        -- There is nothing below a file.
        simp only [Option.ite_none_right_eq_some, Option.some.injEq] at walked
        obtain ⟨-, rfl⟩ := walked
        have there : t.node (here ++ [c] ++ names) ≠ none := by
          rcases found with dir | file
          · rw [dir]; exact Option.some_ne_none _
          · rw [file]; exact Option.some_ne_none _
        rw [node_of_append there below] at node
        cases node
      | link target =>
        simp only [Bool.true_eq_false, and_false, if_false, ← List.append_assoc] at walked ⊢
        exact links _ _ walked

theorem walk_append {links : Nat} (cs tail : List String) (normal : ∀ c ∈ names, Normal c)
    (below : names ≠ [])
    (found : t.node (q ++ names) = some .dir ∨ t.node (q ++ names) = some .file)
    (blank : ∀ c ∈ tail, c = "") (walked : t.walk true links here (cs ++ tail) = some q) :
    t.walk true links here (cs ++ names) = some (q ++ names) := by
  induction links generalizing here cs with
  | zero => exact walkWith_append normal below found blank (by rintro _ _ ⟨⟩) walked
  | succ links ih =>
    exact walkWith_append normal below found blank (fun _ cs walked => ih cs walked) walked

/-- Between a path and a relative one that is joined to it there is one slash. -/
theorem exists_join {dir file : String} (nonempty : dir ≠ "")
    (relative : startsWith file "/" = false) : ∃ front,
      join dir file = front ++ "/" ++ file ∧ (dir = front ∨ dir = front ++ "/") := by
  rw [join, if_neg (ne_true_of_eq_false relative)]
  by_cases slash : dir.toList.getLast? = some '/'
  · rw [if_pos (.inr slash)]
    obtain ⟨chars, split⟩ := List.getLast?_eq_some_iff.mp slash
    have parts : dir = String.ofList chars ++ "/" := by
      refine String.toList_inj.mp ?_
      rw [split, String.toList_append, String.toList_ofList]
      rfl
    exact ⟨String.ofList chars, by rw [← parts], .inr parts⟩
  · rw [if_neg (not_or.mpr ⟨nonempty, slash⟩)]
    exact ⟨dir, rfl, .inl rfl⟩

theorem startsWith_of_split {rest : String} (normal : ∀ c ∈ split rest '/', Normal c) :
    startsWith rest "/" = false := by
  rw [startsWith, decide_eq_false_iff_not]
  rintro ⟨more, slash⟩
  have first : "" ∈ split rest '/' := by
    rw [split, ← slash]
    change _ ∈ (('/' :: more).splitOn '/').map String.ofList
    rw [List.splitOn_cons_eq_if_modifyHead]
    exact List.mem_cons_self
  exact (normal "" first).nonempty rfl

/-- Names that are joined to the path of a directory. -/
theorem canonicalize_join {root : String} (normal : ∀ c ∈ names, Normal c) (below : names ≠ [])
    (found : t.node (q ++ names) = some .dir ∨ t.node (q ++ names) = some .file)
    (resolved : t.canonicalize cwd root = some q) :
    t.canonicalize cwd (join root (String.intercalate (String.singleton '/') names)) =
      some (q ++ names) := by
  rw [canonicalize, resolve] at resolved
  split at resolved
  · cases resolved
  rename_i nonempty
  have single : ∀ c ∈ names, '/' ∉ c.toList := fun c mem => (normal c mem).one
  have parts := split_intercalate below single
  set rest := String.intercalate (String.singleton '/') names
  have relative : startsWith rest "/" = false := by
    rw [← parts] at normal
    exact startsWith_of_split normal
  obtain ⟨front, whole, ends⟩ := exists_join nonempty relative
  have someText : front ++ "/" ++ rest ≠ "" := by
    rw [String.append_assoc]
    simp
  rw [canonicalize, resolve, whole, if_neg someText, split_append_slash, parts]
  rcases ends with rfl | rfl
  · rw [String.append_assoc, origin_append nonempty]
    have all : split root '/' ++ [] = split root '/' := List.append_nil _
    rw [← all] at resolved
    exact walk_append _ [] normal below found (List.forall_mem_nil _) resolved
  · rw [origin_append nonempty]
    have pieces := split_append_slash front ""
    rw [String.append_empty] at pieces
    rw [pieces] at resolved
    exact walk_append _ [""] normal below found (by decide) resolved

end Places

end Rust.FileTree
