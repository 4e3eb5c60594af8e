import UosTv.Pkgd.AppRegistry
import UosTv.Rust.FileTree

/-!
What a command to uninstall an app removes.

The id of the command is joined to the directory of the apps as it is, and everything at the path
goes. That is the directory of one app if the id is a name; the empty id, which a command without
one has, stands for the directory of all apps (`uninstall_iff`).

The machine here is for the operations of `uninstall` and `publish_app_list`, on the tree of files.
-/

namespace Pkgd

open Effect Rust SerdeJson Stardust

structure Disk where
  tree : FileTree
  outbox : List Message

/-- A choice of the environment: whether a path may be looked at, what `remove_dir_all` gets to and
its error, and what `Message::new` takes from its surroundings. -/
structure Access where
  found : Bool := true
  order : List Path := []
  failure : String := ""
  stamp : Stamp := ⟨0, 0⟩

instance : Inhabited Access := ⟨{}⟩

/-- What an operation does. The others are not issued. -/
def actOnTree (cwd : Path) : Machine Op Ans Disk Access := fun w o choice =>
  match o with
  | .pathExists path => some (choice.found && w.tree.pathExists cwd path, w)
  | .removeDirAll path =>
    let out := w.tree.removeDirAll cwd path choice.order choice.failure
    some (out.1, { w with tree := out.2 })
  | .stamp => some (choice.stamp, w)
  | .publish msg => some ((), { w with outbox := msg :: w.outbox })
  | _ => none

/-- An id that is the name of a directory of its own. -/
structure AppId (id : String) : Prop where
  normal : FileTree.Normal id
  notRegistry : id ≠ "registry.json"

section Frame

variable (reg : AppRegistry) (cwd : Path) (id : String) (w w' : Disk)

/-- All that has changed is at or below the directory of one app. -/
def OnlyApp : Prop :=
  ∀ p, w'.tree.nodes.get p ≠ w.tree.nodes.get p →
    AppId id ∧ ∃ apps, w.tree.directory cwd reg.appsDir = some apps ∧ apps ++ [id] <+: p

/-- There is something to remove where the path of the id leads to. -/
def Removes : Prop :=
  w.tree.pathExists cwd (join reg.appsDir id) = true ∧
    ∃ top, w.tree.resolve cwd false (join reg.appsDir id) = some top ∧
      w.tree.node top ≠ some .file ∧
      FileTree.HasRemovable w.tree top (w.tree.removable cwd (join reg.appsDir id) top)

/-- All that has changed is at or below the place where the path of the id leads to. -/
def OnlyAtPath (tree : FileTree) : Prop :=
  ∀ p, tree.nodes.get p ≠ w.tree.nodes.get p → Removes reg cwd id w ∧
    ∃ top, w.tree.resolve cwd false (join reg.appsDir id) = some top ∧ top <+: p

end Frame

section Runs

variable {formats : Formats} {reg : AppRegistry} {cwd : Path} {id : String} {w : Disk}

/-- All answers may be given. -/
def anyAnswer : Contract Op Ans Disk := ⟨fun _ _ _ => True, fun _ _ => True⟩

theorem wp_call {o : Op} {Q : Ans o → Disk → Prop} :
    wp (actOnTree cwd) anyAnswer (call o) Q w ↔
      ∀ choice answer w', actOnTree cwd w o choice = some (answer, w') → Q answer w' :=
  ⟨fun pre choice answer w' done => pre.2 choice answer w' done trivial,
    fun all => ⟨trivial, fun choice answer w' done _ => all choice answer w' done⟩⟩

theorem may_call {o : Op} {Q : Ans o → Disk → Prop} :
    may (actOnTree cwd) anyAnswer (call o) Q w ↔
      ∃ choice answer w', actOnTree cwd w o choice = some (answer, w') ∧ Q answer w' := by
  constructor
  · rintro ⟨choice, answer, w', done, -, post⟩
    exact ⟨choice, answer, w', done, post⟩
  · rintro ⟨choice, answer, w', done, post⟩
    exact ⟨choice, answer, w', done, trivial, post⟩

theorem relied_anyAnswer (e : Effect.Event Op Ans Disk) : e.Relied anyAnswer := fun _ _ => trivial

theorem wp_publishAppList_of_tree {P : FileTree → Prop} (holds : P w.tree) :
    wp (actOnTree cwd) anyAnswer (publishAppList formats reg) (fun _ w' => P w'.tree) w := by
  rw [publishAppList, wp_bind]
  refine wp_call.mpr fun choice stamp w' done => ?_
  cases done
  split
  · refine wp_call.mpr fun choice answer w' done => ?_
    cases done
    exact holds
  · exact holds

theorem may_publishAppList {P : FileTree → Prop} (holds : P w.tree) :
    may (actOnTree cwd) anyAnswer (publishAppList formats reg) (fun _ w' => P w'.tree) w := by
  rw [publishAppList, may_bind]
  refine may_call.mpr ⟨{}, ⟨0, 0⟩, w, rfl, ?_⟩
  split
  · exact may_call.mpr ⟨{}, (), _, rfl, holds⟩
  · exact holds

/-- In every run, what is removed is what is at the path, if there is anything to remove. -/
theorem wp_uninstall :
    wp (actOnTree cwd) anyAnswer (reg.uninstall id)
      (fun _ w' => OnlyAtPath reg cwd id w w'.tree) w := by
  rw [AppRegistry.uninstall, wp_bind]
  refine wp_call.mpr fun choice found w' done => ?_
  cases done
  split
  · rename_i found
    rw [wp_bind]
    refine wp_call.mpr fun choice' answer w' done p changed => ?_
    cases done
    change (w.tree.removeDirAll cwd _ choice'.order choice'.failure).2.nodes.get p ≠ _ at changed
    rw [FileTree.removeDirAll] at changed
    cases resolved : w.tree.resolve cwd false (join reg.appsDir id) with
    | none =>
      rw [resolved] at changed
      exact absurd rfl changed
    | some top =>
      rw [resolved] at changed
      by_cases file : w.tree.node top = some .file
      · simp [file] at changed
      · simp only [file, if_false] at changed
        obtain ⟨present, below, own⟩ := FileTree.get_removeBelow changed
        refine ⟨⟨(Bool.and_eq_true_iff.mp found).2, top, resolved, file, p, present, below, own⟩,
          top, rfl, below⟩
  · exact fun p changed => absurd rfl changed

/-- In some run a node goes that can be removed. -/
theorem may_uninstall {top p : Path}
    (found : w.tree.pathExists cwd (join reg.appsDir id) = true)
    (resolved : w.tree.resolve cwd false (join reg.appsDir id) = some top)
    (notFile : w.tree.node top ≠ some .file)
    (gone : (w.tree.removeBelow top (w.tree.removable cwd (join reg.appsDir id) top) [p]).nodes.get p =
      none) :
    may (actOnTree cwd) anyAnswer (reg.uninstall id)
      (fun _ w' => w'.tree.nodes.get p = none) w := by
  rw [AppRegistry.uninstall, may_bind]
  refine may_call.mpr ⟨{}, true, w, ?_, ?_⟩
  · rw [actOnTree, found]
    rfl
  · rw [if_pos rfl, may_bind]
    refine may_call.mpr ⟨{ order := [p] }, _, _, rfl, ?_⟩
    change (w.tree.removeDirAll cwd _ [p] _).2.nodes.get p = none
    rw [FileTree.removeDirAll, resolved]
    simp only [notFile, if_false]
    exact gone

/-- What is done for a command to uninstall. -/
def uninstallAndPublish (formats : Formats) (reg : AppRegistry) (id : String) : M Done := do
  reg.uninstall id
  publishAppList formats reg
  pure (.uninstalled id)

theorem handleCommand_uninstall {msg : Message} {params : Value}
    (command : msg.method = "pkg.command.uninstall")
    (read : formats.fromSlice msg.params = .ok params) :
    handleCommand formats reg msg = uninstallAndPublish formats reg (textAt params "id") := by
  rw [handleCommand, read, uninstallAndPublish]
  simp [command]

theorem wp_uninstallAndPublish {P : FileTree → Prop}
    (all : wp (actOnTree cwd) anyAnswer (reg.uninstall id) (fun _ w' => P w'.tree) w) :
    wp (actOnTree cwd) anyAnswer (uninstallAndPublish formats reg id)
      (fun _ w' => P w'.tree) w := by
  rw [uninstallAndPublish, wp_bind]
  refine wp_mono all fun _ w' holds => ?_
  rw [wp_bind]
  exact wp_publishAppList_of_tree holds

theorem may_uninstallAndPublish {P : FileTree → Prop}
    (can : may (actOnTree cwd) anyAnswer (reg.uninstall id) (fun _ w' => P w'.tree) w) :
    may (actOnTree cwd) anyAnswer (uninstallAndPublish formats reg id)
      (fun _ w' => P w'.tree) w := by
  rw [uninstallAndPublish, may_bind]
  refine may_mono can fun _ w' holds => ?_
  rw [may_bind]
  exact may_publishAppList holds

end Runs

/-- **A command to uninstall removes nothing but the directory of one app iff** its id is the name of
an app, or there is nothing at all at the path of the id. -/
theorem uninstall_iff (formats : Formats) (reg : AppRegistry) (cwd : Path) (w : Disk)
    (msg : Message) (params : Value) (command : msg.method = "pkg.command.uninstall")
    (read : formats.fromSlice msg.params = .ok params) :
    (∀ choices done w' rest,
        exec (actOnTree cwd) (handleCommand formats reg msg) w choices = some (done, w', rest) →
          OnlyApp reg cwd (textAt params "id") w w') ↔
      AppId (textAt params "id") ∨ ¬ Removes reg cwd (textAt params "id") w := by
  rw [handleCommand_uninstall command read]
  constructor
  · intro only
    by_contra neither
    obtain ⟨unnamed, removes⟩ := not_or.mp neither
    obtain ⟨found, top, resolved, notFile, removable⟩ := not_not.mp removes
    obtain ⟨p, present, -, gone⟩ := FileTree.exists_removed removable
    obtain ⟨choices, done, w', ran, absent, -⟩ :=
      exists_exec_of_may (may_uninstallAndPublish (P := fun tree => tree.nodes.get p = none)
        (may_uninstall found resolved notFile gone))
    have changed : w'.tree.nodes.get p ≠ w.tree.nodes.get p := fun same => present (same ▸ absent)
    exact unnamed (only choices done w' [] ran p changed).1
  · intro named choices done w' rest ran
    have all : wp (actOnTree cwd) anyAnswer (uninstallAndPublish formats reg (textAt params "id"))
        (fun _ w' => OnlyAtPath reg cwd (textAt params "id") w w'.tree) w :=
      wp_uninstallAndPublish wp_uninstall
    intro p changed
    obtain ⟨removes, top, resolved, below⟩ :=
      wp_exec all ran (fun e _ => relied_anyAnswer e) p changed
    have app := named.resolve_right (not_not.mpr removes)
    obtain ⟨apps, rfl, found⟩ := FileTree.resolve_join app.normal resolved
    exact ⟨app, apps, found, below⟩

/-- A directory of apps with one app and the registry. -/
def sampleTree : FileTree where
  nodes := HashMap.collect [
    (["apps"], .dir),
    (["apps", "registry.json"], .file),
    (["apps", "com.example"], .dir)]
  root := rfl
  closed {here name} inner present := by
    obtain ⟨node, found⟩ := Option.ne_none_iff_exists'.mp present
    have apps : here = ["apps"] := by
      have mem := (HashMap.get_collect (by decide)).mp found
      simp only [List.mem_cons, Prod.mk.injEq, List.not_mem_nil, or_false] at mem
      rcases mem with ⟨path, -⟩ | ⟨path, -⟩ | ⟨path, -⟩
      · exact absurd (List.append_inj_left' (path.trans (List.nil_append ["apps"]).symm) rfl) inner
      · exact List.append_inj_left' (path.trans (List.singleton_append).symm) rfl
      · exact List.append_inj_left' (path.trans (List.singleton_append).symm) rfl
    subst apps
    rfl

def sampleRegistry : AppRegistry := ⟨"/apps", ∅, "/apps/registry.json"⟩

/-- The parameters of a command; a command may come without an id. -/
def uninstallParams (id : Option String) : Value :=
  record ((id.map fun id => ("id", Value.string id)).toList)

def uninstallCommand (id : Option String) : Message :=
  { Message.new ⟨1, 1⟩ "pkg.command.uninstall" with
    params := asBytes (String.ofList (print (uninstallParams id))) }

theorem read_uninstallCommand (id : Option String) :
    textFormats.fromSlice (uninstallCommand id).params = .ok (uninstallParams id) := by
  have canonical : Canonical (uninstallParams id) := by
    cases id with
    | none => exact canonical_record (List.forall_mem_nil _) (by simp)
    | some id => exact canonical_record (by simpa using Canonical.string id) (by simp)
  have renders := (renders_print canonical).item_of_value
  rw [uninstallCommand, textFormats_of_renders renders]

theorem uninstall_example : AppId "com.example" ∧ ∀ choices done w' rest,
    exec (actOnTree []) (handleCommand textFormats sampleRegistry (uninstallCommand "com.example"))
        ⟨sampleTree, []⟩ choices = some (done, w', rest) →
      OnlyApp sampleRegistry [] "com.example" ⟨sampleTree, []⟩ w' := by
  have named : AppId "com.example" :=
    ⟨⟨by decide, by decide, by decide, by decide⟩, by decide⟩
  exact ⟨named, (uninstall_iff textFormats sampleRegistry [] ⟨sampleTree, []⟩
    (uninstallCommand "com.example") _ rfl (read_uninstallCommand _)).mpr (.inl named)⟩

/-- A command without an id removes the registry. -/
theorem uninstall_without_id : ∃ choices done w' rest,
    exec (actOnTree []) (handleCommand textFormats sampleRegistry (uninstallCommand none))
        ⟨sampleTree, []⟩ choices = some (done, w', rest) ∧
      sampleTree.nodes.get ["apps", "registry.json"] = some .file ∧
      w'.tree.nodes.get ["apps", "registry.json"] = none := by
  have resolved : sampleTree.resolve [] false (join "/apps" "") = some ["apps"] := rfl
  have dir : sampleTree.node ["apps"] ≠ some .file := by decide
  have can : may (actOnTree []) anyAnswer (sampleRegistry.uninstall "")
      (fun _ w' => w'.tree.nodes.get ["apps", "registry.json"] = none) ⟨sampleTree, []⟩ :=
    may_uninstall rfl resolved dir rfl
  rw [handleCommand_uninstall rfl (read_uninstallCommand none)]
  obtain ⟨choices, done, w', ran, gone, -⟩ :=
    exists_exec_of_may (may_uninstallAndPublish
      (P := fun tree => tree.nodes.get ["apps", "registry.json"] = none) can)
  exact ⟨choices, done, w', [], ran, rfl, gone⟩

end Pkgd
