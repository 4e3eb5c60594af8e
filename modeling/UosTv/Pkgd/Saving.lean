import Mathlib.Data.List.Perm.Basic
import UosTv.Lib.Choices
import UosTv.Pkgd.AppRegistry

/-!
What `registry.json` holds, and what no command changes.

A table of apps that has been written completely is read back, and one that is cut short is not
read at all. So whatever has happened to the file, the table that the package manager starts with
holds the apps of the system and no others (`wp_new`), and as `install` and `uninstall` write
neither the table nor the file, it stays so (`issues_handleCommand`).
-/

namespace Pkgd

open Effect Rust SerdeJson Stardust

/-! ### Tables of apps, written and read -/

/-- The entries of a table of apps as they are written. -/
def appValues (apps : HashMap String AppEntry) : List (String × Value) :=
  apps.entries.map fun e => (e.1, Serde.toValue e.2)

theorem distinct_appValues (apps : HashMap String AppEntry) : ((appValues apps).map (·.1)).Nodup := by
  rw [appValues, List.map_map]
  exact apps.keys_nodup

theorem renders_prettyApps (apps : HashMap String AppEntry) :
    Renders (.value (.object (collect (appValues apps))))
      (prettyObject 0 (apps.entries.map fun e => (e.1, prettyRecord 1 e.2.fields))) := by
  apply renders_prettyObject 0 sorted_collect (collect_perm (distinct_appValues apps)).symm
  intro e mem
  exact renders_prettyRecord 1 e.2.canonical_fields e.2.distinct_fields

theorem readEntries_map (pairs : List (String × AppEntry)) :
    readEntries (pairs.map fun e => (e.1, Serde.toValue e.2)) = some pairs := by
  unfold readEntries
  induction pairs with
  | nil => rfl
  | cons e pairs ih => simp [List.mapM_cons, ih]

/-- Entries in another order are read as such. -/
theorem exists_readEntries {es : List (String × Value)} {pairs : List (String × AppEntry)}
    (perm : es.Perm (pairs.map fun e => (e.1, Serde.toValue e.2))) :
    ∃ pairs', readEntries es = some pairs' ∧ pairs'.Perm pairs := by
  have split := congrFun (congrFun (List.eq_map_comp_perm
    fun e : String × AppEntry => (e.1, Serde.toValue e.2)) es) pairs
  obtain ⟨pairs', rfl, same⟩ := split.mpr perm
  exact ⟨pairs', readEntries_map pairs', same⟩

/-- What has been written completely is read back. -/
theorem readApps_prettyApps (formats : TextFormats) (apps : HashMap String AppEntry) :
    ∃ apps', readApps formats.toFormats (prettyApps apps) = some apps' ∧
      ∀ id, apps'.get id = apps.get id := by
  let pairs := apps.entries.map fun e => (e.1, e.2)
  have perm : (collect (appValues apps)).Perm (pairs.map fun e => (e.1, Serde.toValue e.2)) := by
    rw [List.map_map]
    exact collect_perm (distinct_appValues apps)
  obtain ⟨pairs', entries, same⟩ := exists_readEntries perm
  have nodup : (pairs'.map Prod.fst).Nodup := by
    rw [(same.map _).nodup_iff, List.map_map]
    exact apps.keys_nodup
  refine ⟨HashMap.collect pairs', ?_, fun id => Option.ext fun app => ?_⟩
  · have read := formats.fromSlice_of_renders (renders_prettyApps apps).item_of_value
    rw [readApps, prettyApps, read]
    exact congrArg (Option.map _) entries
  · rw [HashMap.get_collect nodup, same.mem_iff, ← HashMap.mem_entries]
    simp [pairs]

/-- What is cut short is not read. -/
theorem readApps_take (formats : TextFormats) {apps : HashMap String AppEntry} {n : Nat}
    (short : n < (prettyApps apps).length) :
    readApps formats.toFormats ((prettyApps apps).take n) = none := by
  obtain ⟨e, unread⟩ := formats.fromSlice_take (renders_prettyApps apps) short
  rw [readApps, prettyApps, unread]

/-! ### The apps of the system -/

/-- The table holds the apps of the system, each under its id. -/
def IsSystem (apps : HashMap String AppEntry) : Prop :=
  ∀ id, apps.get id = systemApps.find? fun app => app.id = id

theorem get_foldl_orInsert (more : List AppEntry) (apps : HashMap String AppEntry) (id : String) :
    (more.foldl (fun apps app => apps.orInsert app.id app) apps).get id =
      (apps.get id).or (more.find? fun app => app.id = id) := by
  induction more generalizing apps with
  | nil => simp
  | cons app more ih =>
    rw [List.foldl_cons, ih, HashMap.get_orInsert, List.find?_cons]
    by_cases same : id = app.id
    · cases known : apps.get app.id with
      | none => simp [same, known]
      | some app' => simp [same, known]
    · simp [same, Ne.symm same]

theorem isSystem_withSystemApps_empty (appsDir registryFile : String) :
    IsSystem (AppRegistry.withSystemApps ⟨appsDir, ∅, registryFile⟩).apps := by
  intro id
  rw [AppRegistry.withSystemApps, get_foldl_orInsert, HashMap.get_empty, Option.none_or]

theorem isSystem_withSystemApps {reg : AppRegistry} (system : IsSystem reg.apps) :
    IsSystem reg.withSystemApps.apps := by
  intro id
  rw [AppRegistry.withSystemApps, get_foldl_orInsert, system id, Option.or_self]

section List

variable {reg : AppRegistry} {id : String}

theorem IsSystem.id_eq (system : IsSystem reg.apps) {e : Σ _ : String, AppEntry}
    (mem : e ∈ reg.apps.entries) : e.2.id = e.1 := by
  have found := HashMap.mem_entries.mp mem
  rw [system] at found
  simpa using List.find?_some found

/-- The ids of the listed apps are the keys of the table. -/
theorem IsSystem.ids_eq (system : IsSystem reg.apps) : reg.list.map (·.id) = reg.apps.keys := by
  rw [AppRegistry.list, List.map_map]
  exact List.map_congr_left fun e mem => system.id_eq mem

theorem IsSystem.mem_ids (system : IsSystem reg.apps) :
    id ∈ reg.list.map (·.id) ↔ id ∈ systemApps.map (·.id) := by
  rw [system.ids_eq, HashMap.mem_keys, system id, ← Option.isSome_iff_exists, List.find?_isSome]
  simp

theorem IsSystem.nodup_ids (system : IsSystem reg.apps) : (reg.list.map (·.id)).Nodup := by
  rw [system.ids_eq]
  exact reg.apps.keys_nodup

/-- Two registries with the apps of the system list the same. -/
theorem IsSystem.list_perm {reg' : AppRegistry} (system' : IsSystem reg'.apps)
    (system : IsSystem reg.apps) : reg'.list.Perm reg.list := by
  have entries := HashMap.entries_perm fun id => (system' id).trans (system id).symm
  exact entries.map _

end List

/-! ### The file -/

variable {formats : TextFormats}

/-- `registry.json` holds the apps of the system if it has last been saved, and else is not
read. -/
structure FileOk (formats : TextFormats) (w : World) : Prop where
  saved : w.log.head? = some .saved → ∃ content apps, w.registry = some content ∧
    readApps formats.toFormats content = some apps ∧ IsSystem apps
  unread : w.log.head? ≠ some .saved →
    ∀ content ∈ w.registry, readApps formats.toFormats content = none

theorem FileOk.put {w : World} {apps : HashMap String AppEntry} (system : IsSystem apps) (n : Nat) :
    FileOk formats (w.put (prettyApps apps) n) := by
  by_cases short : n < (prettyApps apps).length
  · have damaged : (w.put (prettyApps apps) n).log.head? = some .damaged := by
      rw [World.put, if_pos short, List.head?_cons]
    refine ⟨fun saved => ?_, fun _ content mem => ?_⟩
    · rw [damaged] at saved
      cases saved
    · cases mem
      exact readApps_take formats short
  · have saved : (w.put (prettyApps apps) n).log.head? = some .saved := by
      rw [World.put, if_neg short, List.head?_cons]
    refine ⟨fun _ => ?_, fun other => absurd saved other⟩
    obtain ⟨apps', read, same⟩ := readApps_prettyApps formats apps
    refine ⟨prettyApps apps, apps', ?_, read, fun id => (same id).trans (system id)⟩
    rw [World.put, List.take_of_length_le (Nat.le_of_not_lt short)]

theorem FileOk.remove {w : World} : FileOk formats w.remove := by
  constructor
  · rintro ⟨⟩
  · rintro _ _ ⟨⟩

/-- What is read of the file is a table of the apps of the system, or nothing. -/
theorem FileOk.read {w : World} (file : FileOk formats w) {content : Bytes}
    (holds : w.registry = some content) {apps : HashMap String AppEntry}
    (read : readApps formats.toFormats content = some apps) : IsSystem apps := by
  by_cases saved : w.log.head? = some .saved
  · obtain ⟨content', apps', holds', read', system⟩ := file.saved saved
    cases holds.symm.trans holds'
    cases read.symm.trans read'
    exact system
  · have unread := file.unread saved content holds
    rw [read] at unread
    cases unread

theorem readApps_nil (formats : TextFormats) : readApps formats.toFormats [] = none := by
  have short : 0 < (prettyApps ∅).length := by decide
  exact readApps_take formats short

/-- Whether or not the file can be read. -/
theorem FileOk.loaded {w : World} (file : FileOk formats w) (failure : Option String)
    {apps : HashMap String AppEntry}
    (read : readApps formats.toFormats ((actRead w failure).toOption.getD []) = some apps) :
    IsSystem apps := by
  cases failure with
  | some e => cases (readApps_nil formats).symm.trans read
  | none =>
    cases holds : w.registry with
    | none =>
      rw [actRead, holds] at read
      cases (readApps_nil formats).symm.trans read
    | some content =>
      rw [actRead, holds] at read
      exact file.read holds read

/-! ### What is issued -/

/-- The message lists the apps of the registry. -/
def Lists (formats : Formats) (reg : AppRegistry) (msg : Message) : Prop :=
  msg.method = "pkg.app_list" ∧
    formats.fromSlice msg.params = .ok (.object [("apps", Serde.toValue reg.list)])

/-- Only a table of the apps of the system is written to the file, and only messages as given are
published. -/
def Op.Allowed (registryFile : String) (allowed : Message → Prop) : Op → Prop
  | .write path bytes => path = registryFile → ∃ apps, IsSystem apps ∧ bytes = prettyApps apps
  | .publish msg => allowed msg
  | _ => True

/-- Relies on nothing. Whenever something is issued the file is as it should be. -/
def keeping (formats : TextFormats) : Contract Op Ans World where
  rely _ _ _ := True
  guarantee w _ := FileOk formats w

/-- The file is as it should be, and only messages as given have been published. -/
def Sound (formats : TextFormats) (allowed : Message → Prop) (w : World) : Prop :=
  FileOk formats w ∧ ∀ msg ∈ w.outbox, allowed msg

variable {registryFile : String} {allowed : Message → Prop}

theorem Sound.write {w : World} {apps : HashMap String AppEntry} (system : IsSystem apps)
    (sound : Sound formats allowed w) (choice : Choice) :
    Sound formats allowed (actWrite w (prettyApps apps) choice).2 := by
  unfold actWrite
  cases choice.failure with
  | none => exact ⟨.put system _, sound.2⟩
  | some e =>
    cases choice.written with
    | none => exact sound
    | some n => exact ⟨.put system n, sound.2⟩

theorem Sound.act {w w' : World} {o : Op} {choice : Choice} {result : Ans o}
    (sound : Sound formats allowed w) (issued : o.Allowed registryFile allowed)
    (done : act registryFile w o choice = some (result, w')) : Sound formats allowed w' := by
  obtain ⟨file, published⟩ := sound
  cases o with
  | pathExists path => cases done; exact ⟨file, published⟩
  | createDirAll path => cases done; exact ⟨file, published⟩
  | removeDirAll path =>
    cases done
    split
    · exact ⟨.remove, published⟩
    · exact ⟨file, published⟩
  | read path =>
    simp only [Pkgd.act] at done
    split at done <;> (cases done; exact ⟨file, published⟩)
  | write path bytes =>
    simp only [Pkgd.act] at done
    split at done
    · obtain ⟨apps, system, rfl⟩ := issued ‹_›
      obtain rfl := congrArg Prod.snd (Option.some.inj done)
      exact Sound.write system ⟨file, published⟩ choice
    · cases done
      exact ⟨file, published⟩
  | get url => cases done; exact ⟨file, published⟩
  | connect => cases done; exact ⟨file, published⟩
  | stamp => cases done; exact ⟨file, published⟩
  | publish msg =>
    cases done
    exact ⟨⟨file.saved, file.unread⟩, List.forall_mem_cons.mpr ⟨issued, published⟩⟩

/-- A program that issues what is allowed keeps the file and the outbox as they should be. -/
theorem wp_of_issues {α : Type} {p : M α} (issues : Issues (Op.Allowed registryFile allowed) p)
    {w : World} (sound : Sound formats allowed w) :
    wp (act registryFile) (keeping formats) p (fun _ => Sound formats allowed) w := by
  apply issues.wp _ _ sound
  · intro s o _ sound
    exact sound.1
  · intro s o choice result s' issued _ done sound
    exact sound.act issued done

theorem issues_call {o : Op} (issued : o.Allowed registryFile allowed) :
    Issues (Op.Allowed registryFile allowed) (call o) :=
  ⟨issued, fun _ => trivial⟩

theorem issues_save {reg : AppRegistry} (system : IsSystem reg.apps) :
    Issues (Op.Allowed registryFile allowed) reg.save :=
  .bind (issues_call (o := .createDirAll reg.appsDir) trivial) fun _ =>
    .bind (issues_call fun _ => ⟨reg.apps, system, rfl⟩) fun _ => trivial

/-- What is attached to a message about the apps. -/
theorem exists_param (formats : Formats) (reg : AppRegistry) (stamp : Stamp) :
    ∃ msg, ((Message.new stamp "pkg.app_list").withSrc "pkgd").param formats "apps"
      (Serde.toValue reg.list) = .ok msg ∧ Lists formats reg msg := by
  have apps : Canonical (Serde.toValue reg.list) :=
    canonical_list fun app _ => canonical_record app.canonical_fields app.distinct_fields
  have entries : ∀ e ∈ [("apps", Serde.toValue reg.list)], Canonical e.2 := by
    simpa using apps
  obtain ⟨bytes, written, read⟩ := formats.fromSlice_toVec (.object [("apps", Serde.toValue reg.list)])
    (.object (List.pairwise_singleton _ _) entries)
  refine ⟨{ (Message.new stamp "pkg.app_list").withSrc "pkgd" with params := bytes }, ?_, rfl, read⟩
  change formats.toVec (.object [("apps", Serde.toValue reg.list)]) >>= _ = _
  rw [written]
  rfl

theorem issues_publishAppList (reg : AppRegistry) :
    Issues (Op.Allowed registryFile (Lists formats.toFormats reg))
      (publishAppList formats.toFormats reg) := by
  apply Issues.bind (issues_call (o := .stamp) trivial)
  intro stamp
  obtain ⟨msg, written, lists⟩ := exists_param formats.toFormats reg stamp
  rw [written]
  exact issues_call lists

/-- The files of an app are not `registry.json`. -/
theorem issues_writeAppFile (appsDir appDir : String) (bytes : Bytes) {file : String}
    (other : ¬ file.toList <:+ "registry.json".toList)
    (other' : ¬ "registry.json".toList <:+ file.toList) :
    Issues (Op.Allowed (join appsDir "registry.json") allowed)
      (AppRegistry.orFail (write (join appDir file) bytes)).run :=
  Issues.attempt (issues_call (o := .write _ bytes) fun same => absurd same (join_ne other other'))

theorem issues_install (reg : AppRegistry) (appsDir id url : String) :
    Issues (Op.Allowed (join appsDir "registry.json") allowed) (reg.install id url).run := by
  apply Issues.run_bind (issues_call (o := .createDirAll _) trivial).attempt
  intro _
  apply Issues.run_bind (issues_call (o := .get url) trivial).attempt
  intro response
  apply Issues.run_bind (issues_writeAppFile appsDir _ response (by decide) (by decide))
  intro _
  exact issues_writeAppFile appsDir _ _ (by decide) (by decide)

theorem issues_uninstall (reg : AppRegistry) (id : String) :
    Issues (Op.Allowed registryFile allowed) (reg.uninstall id) := by
  apply Issues.bind (issues_call (o := .pathExists _) trivial)
  intro found
  cases found with
  | false => trivial
  | true => exact .bind (issues_call (o := .removeDirAll _) trivial) fun _ => trivial

/-! ### What commands and starts keep -/

/-- Whatever the command is, the file is as it should be and the list of the apps is published. -/
theorem issues_handleCommand (reg : AppRegistry) (appsDir : String) (msg : Message) :
    Issues (Op.Allowed (join appsDir "registry.json") (Lists formats.toFormats reg))
      (handleCommand formats.toFormats reg msg) := by
  unfold handleCommand
  split
  · trivial
  · rename_i params parsed
    split
    · apply Issues.bind (issues_install reg appsDir _ _)
      intro result
      cases result with
      | error e => trivial
      | ok => exact .bind (issues_publishAppList reg) fun _ => trivial
    · split
      · exact .bind (issues_uninstall reg _) fun _ =>
          .bind (issues_publishAppList reg) fun _ => trivial
      · split
        · exact .bind (issues_publishAppList reg) fun _ => trivial
        · trivial

/-- Something has been installed or uninstalled. -/
def Done.Changes : Done → Prop
  | .installed _ | .uninstalled _ => True
  | _ => False

theorem wp_publishAppList (formats : Formats) (reg : AppRegistry) (w : World) :
    wp (act registryFile) free (publishAppList formats reg) (fun _ w' => w'.outbox ≠ []) w := by
  rw [publishAppList, wp_bind]
  refine ⟨trivial, fun choice stamp w' _ _ => ?_⟩
  obtain ⟨msg, written, -⟩ := exists_param formats reg stamp
  simp only [wp, written]
  refine ⟨trivial, fun choice result w'' done _ => ?_⟩
  cases done
  exact List.cons_ne_nil _ _

theorem wp_publish_done (formats : Formats) (reg : AppRegistry) (done : Done) (w : World) :
    wp (act registryFile) free (publishAppList formats reg >>= fun _ => pure done)
      (fun done w' => done.Changes → w'.outbox ≠ []) w := by
  rw [wp_bind]
  exact wp_mono (wp_publishAppList formats reg w) fun _ _ posted _ => posted

/-- After something has been installed or uninstalled a list has been published. -/
theorem wp_handleCommand (formats : Formats) (reg : AppRegistry) (msg : Message) (w : World) :
    wp (act registryFile) free (handleCommand formats reg msg)
      (fun done w' => done.Changes → w'.outbox ≠ []) w := by
  unfold handleCommand
  split
  · exact False.elim
  · split
    · rw [wp_bind]
      apply wp_mono (wp_free_true _ w)
      intro result w' _
      cases result with
      | error e => exact False.elim
      | ok => exact wp_publish_done formats reg _ w'
    · split
      · rw [wp_bind]
        exact wp_mono (wp_free_true _ w) fun _ w' _ => wp_publish_done formats reg _ w'
      · split
        · exact wp_publish_done formats reg _ w
        · exact False.elim

/-- The apps that are read are those of the system, or none. -/
theorem wp_loadApps {w : World} (sound : Sound formats allowed w) :
    wp (act registryFile) (keeping formats) (AppRegistry.loadApps formats.toFormats registryFile)
      (fun apps w' => (apps = ∅ ∨ IsSystem apps) ∧ Sound formats allowed w') w := by
  rw [AppRegistry.loadApps, wp_bind]
  refine ⟨sound.1, fun choice found w' done _ => ?_⟩
  cases done
  cases choice.found with
  | false => exact ⟨.inl rfl, sound⟩
  | true =>
    refine ⟨sound.1, fun choice content w' done _ => ?_⟩
    simp only [act, if_pos] at done
    cases done
    refine ⟨?_, sound⟩
    cases read : readApps formats.toFormats ((actRead w choice.failure).toOption.getD []) with
    | none => exact .inl rfl
    | some apps => exact .inr (sound.1.loaded choice.failure read)

/-- The package manager starts with the apps of the system. -/
theorem wp_new (appsDir : String) {w : World} (sound : Sound formats allowed w) :
    wp (act (join appsDir "registry.json")) (keeping formats)
      (AppRegistry.new formats.toFormats appsDir)
      (fun reg w' => IsSystem reg.apps ∧ Sound formats allowed w') w := by
  unfold AppRegistry.new
  dsimp only
  rw [wp_bind]
  apply wp_mono (wp_loadApps sound)
  rintro apps w' ⟨read, sound⟩
  have system : IsSystem (AppRegistry.withSystemApps
      ⟨appsDir, apps, join appsDir "registry.json"⟩).apps := by
    rcases read with rfl | system
    · exact isSystem_withSystemApps_empty appsDir _
    · exact isSystem_withSystemApps system
  rw [AppRegistry.discoverSystemApps, wp_bind]
  apply wp_mono (wp_of_issues (issues_save system) sound)
  intro _ w'' sound
  exact ⟨system, sound⟩

end Pkgd
