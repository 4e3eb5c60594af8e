import UosTv.Lib.Past
import UosTv.Pkgd.Saving

/-!
Which apps the package manager lists.

The table of apps is neither changed nor saved when an app is installed or uninstalled, so in every
run the apps of the system are listed and no others. The list is as it should be, and agrees with
`registry.json`, exactly when no other app is installed and the file has last been saved completely
(`appList_agrees_iff`).
-/

namespace Pkgd

open Effect Rust SerdeJson Stardust

/-! ### Runs -/

/-- What a command counts as when the package manager is killed before it is done. -/
def attempted (formats : Formats) (msg : Message) : Done :=
  match formats.fromSlice msg.params with
  | .error _ => .nothing
  | .ok params =>
    if msg.method = "pkg.command.install" then .notInstalled (textAt params "id")
    else if msg.method = "pkg.command.uninstall" then .uninstalled (textAt params "id")
    else .nothing

/-- The machine for a directory of apps. -/
abbrev machine (appsDir : String) : Machine Op Ans World Choice := act (join appsDir "registry.json")

/-- The runs from an empty directory of apps: what has been done, the last first, and the registry
of the package manager if it is running. It is started again after it has been killed, also before
it is done with something, or between two commands. -/
inductive Run (formats : TextFormats) (appsDir : String) :
    List Done → World → Option AppRegistry → Prop
  | empty : Run formats appsDir [] {} none
  | start {history : List Done} {w w' : World} {running : Option AppRegistry} {reg : AppRegistry}
    {choices rest : List Choice} (before : Run formats appsDir history w running)
    (run : exec (machine appsDir) (start formats.toFormats appsDir) w.clear choices =
      some (reg, w', rest)) : Run formats appsDir (.started :: history) w' (some reg)
  | command {history : List Done} {w w' : World} {reg : AppRegistry} {msg : Message} {done : Done}
    {choices rest : List Choice} (before : Run formats appsDir history w (some reg))
    (run : exec (machine appsDir) (handleCommand formats.toFormats reg msg) w.clear choices =
      some (done, w', rest)) : Run formats appsDir (done :: history) w' (some reg)
  | killedAtStart {history : List Done} {w w' : World} {running : Option AppRegistry}
    {choices : List Choice} (before : Run formats appsDir history w running)
    (mem : w' ∈ states (machine appsDir) (start formats.toFormats appsDir) w.clear choices) :
    Run formats appsDir history w' none
  | killedAtCommand {history : List Done} {w w' : World} {reg : AppRegistry} {msg : Message}
    {choices : List Choice} (before : Run formats appsDir history w (some reg))
    (mem : w' ∈ states (machine appsDir) (handleCommand formats.toFormats reg msg) w.clear choices) :
    Run formats appsDir (attempted formats.toFormats msg :: history) w' none

/-- The latest attempt to install the app has succeeded, and it has not been uninstalled since. -/
def Installed (id : String) : List Done → Prop :=
  Past.Since (fun done _ => done ≠ .notInstalled id ∧ done ≠ .uninstalled id)
    fun done _ => done = .installed id

/-- The list of the apps is as it should be, and so is what says the same elsewhere. -/
structure Agrees (formats : TextFormats) (appsDir : String) (history : List Done) (w : World)
    (reg : AppRegistry) : Prop where
  /-- The apps of the system and the installed ones are listed. -/
  listed : ∀ id, id ∈ reg.list.map (·.id) ↔ id ∈ systemApps.map (·.id) ∨ Installed id history
  /-- Each is listed once. -/
  once : (reg.list.map (·.id)).Nodup
  /-- What the last command has published is this list. -/
  published : ∀ msg ∈ w.outbox, Lists formats.toFormats reg msg
  /-- It has been published if anything has changed. -/
  announced : ∀ done ∈ history.head?, done.Changes → w.outbox ≠ []
  /-- `registry.json` holds the same apps. -/
  onDisk : ∃ content apps, w.registry = some content ∧
    readApps formats.toFormats content = some apps ∧ ∀ id, apps.get id = reg.apps.get id
  /-- A restart does not change the list. -/
  restart : ∀ choices reg' w' rest,
    exec (machine appsDir) (AppRegistry.new formats.toFormats appsDir) w choices =
      some (reg', w', rest) → reg'.list.Perm reg.list

/-! ### What holds in every run -/

variable {formats : TextFormats} {appsDir : String} {history : List Done} {w : World}
  {reg : AppRegistry} {running : Option AppRegistry}

theorem relied {e : Event Op Ans World} : e.Relied (keeping formats) := fun _ _ => trivial

theorem FileOk.clear (file : FileOk formats w) (allowed : Message → Prop) :
    Sound formats allowed w.clear :=
  ⟨⟨file.saved, file.unread⟩, List.forall_mem_nil _⟩

/-- Before the first command the list of the apps of the system may have been published. -/
theorem wp_start (appsDir : String) (file : FileOk formats w) :
    wp (machine appsDir) (keeping formats) (start formats.toFormats appsDir)
      (fun reg w' => IsSystem reg.apps ∧ Sound formats (Lists formats.toFormats reg) w') w.clear := by
  rw [start, wp_bind]
  apply wp_mono (wp_new appsDir (file.clear fun _ => False))
  rintro reg w' ⟨system, file, silent⟩
  have sound : Sound formats (Lists formats.toFormats reg) w' :=
    ⟨file, fun msg mem => (silent msg mem).elim⟩
  refine ⟨file, fun choice connected w'' done _ => ?_⟩
  cases done
  cases choice.found with
  | false => exact ⟨system, sound⟩
  | true =>
    change wp _ _ (publishAppList formats.toFormats reg >>= fun _ => pure reg) _ _
    rw [wp_bind]
    apply wp_mono (wp_of_issues (issues_publishAppList reg) sound)
    intro _ w'' sound
    exact ⟨system, sound⟩

/-- **In every run** the file is as it should be, and a running package manager has the apps of the
system in its table and has published them. -/
theorem Run.sound (run : Run formats appsDir history w running) :
    FileOk formats w ∧ ∀ reg ∈ running, IsSystem reg.apps ∧ Sound formats (Lists formats.toFormats reg) w := by
  have all : ∀ {α : Type} {p : M α} {s : World} {choices : List Choice},
      ∀ e ∈ trace (machine appsDir) p s choices, e.Relied (keeping formats) :=
    fun e _ => relied
  induction run with
  | empty =>
    refine ⟨⟨?_, ?_⟩, ?_⟩
    · rintro ⟨⟩
    · rintro _ _ ⟨⟩
    · rintro _ ⟨⟩
  | start before run ih =>
    have sound := wp_exec (wp_start appsDir ih.1) run all
    exact ⟨sound.2.1, by rintro _ ⟨⟩; exact sound⟩
  | @command _ w _ reg msg _ _ _ before run ih =>
    obtain ⟨file, running⟩ := ih
    have sound := wp_exec (wp_of_issues (issues_handleCommand reg appsDir msg) (file.clear _)) run all
    exact ⟨sound.1, by rintro _ ⟨⟩; exact ⟨(running reg rfl).1, sound⟩⟩
  | killedAtStart before mem ih =>
    have pre := wp_mono (wp_start appsDir ih.1) fun reg w' post => post.2.1
    exact ⟨wp_states (fun _ _ file => file) pre all _ mem, by rintro _ ⟨⟩⟩
  | @killedAtCommand _ w _ reg msg _ before mem ih =>
    have issues : Issues _ (handleCommand formats.toFormats reg msg) :=
      issues_handleCommand reg appsDir msg
    have pre := wp_mono (wp_of_issues issues (ih.1.clear _)) fun _ w' sound => sound.1
    exact ⟨wp_states (fun _ _ file => file) pre all _ mem, by rintro _ ⟨⟩⟩

theorem Run.announced (run : Run formats appsDir history w (some reg)) :
    ∀ done ∈ history.head?, done.Changes → w.outbox ≠ [] := by
  cases run with
  | start before run => rintro _ ⟨⟩ ⟨⟩
  | command before run =>
    rintro done ⟨⟩
    exact wp_exec (wp_handleCommand formats.toFormats reg _ _) run fun _ _ _ _ => trivial

theorem appList_agrees_iff (run : Run formats appsDir history w (some reg)) :
    Agrees formats appsDir history w reg ↔
      (∀ id, Installed id history → id ∈ systemApps.map (·.id)) ∧ w.log.head? = some .saved := by
  obtain ⟨file, running⟩ := run.sound
  obtain ⟨system, sound⟩ := running reg rfl
  constructor
  · intro agrees
    constructor
    · intro id installed
      exact system.mem_ids.mp ((agrees.listed id).mpr (.inr installed))
    · by_contra other
      obtain ⟨content, apps, holds, read, -⟩ := agrees.onDisk
      rw [file.unread other content holds] at read
      cases read
  · rintro ⟨none_else, saved⟩
    obtain ⟨content, apps, holds, read, same⟩ := file.saved saved
    refine ⟨fun id => ?_, system.nodup_ids, sound.2, run.announced, ?_, ?_⟩
    · rw [system.mem_ids, or_iff_left_of_imp (none_else id)]
    · exact ⟨content, apps, holds, read, fun id => (same id).trans (system id).symm⟩
    · intro choices reg' w' rest run
      have any : Sound formats (fun _ => True) w := ⟨file, fun _ _ => trivial⟩
      exact (wp_exec (wp_new appsDir any) run fun _ _ => relied).1.list_perm system

/-! ### A run in which an app is installed -/

/-- The choices of a first start: there is no `registry.json`, it is saved, and the bus is there. -/
def firstStart : List Choice := [{}, {}, {}, { found := true }, {}, {}]

/-- The registry after it. -/
def firstRegistry : AppRegistry :=
  AppRegistry.withSystemApps ⟨"/data/apps", ∅, join "/data/apps" "registry.json"⟩

theorem exists_started : ∃ w reg, Run grammarFormats "/data/apps" [.started] w (some reg) ∧
    reg = firstRegistry ∧ w.log.head? = some .saved := by
  have started : exec (machine "/data/apps") (start grammarFormats.toFormats "/data/apps")
      (World.clear {}) firstStart = some (_, _, []) := rfl
  exact ⟨_, _, .start .empty started, rfl, congrArg some (if_neg (Nat.lt_irrefl _))⟩

theorem appList_agrees_after_start : ∃ w reg, Run grammarFormats "/data/apps" [.started] w (some reg) ∧
    Agrees grammarFormats "/data/apps" [.started] w reg := by
  obtain ⟨w, reg, run, -, saved⟩ := exists_started
  have nothing : ∀ id, ¬ Installed id [.started] := by
    intro id
    simp [Installed]
  have agrees := (appList_agrees_iff run).mpr ⟨fun id installed => (nothing id installed).elim, saved⟩
  exact ⟨w, reg, run, agrees⟩

/-- A command to install an app. -/
def installParams : Value := .object [
  ("id", .string "com.uos.youtube"),
  ("url", .string "https://youtube.com/tv.uosp")]

theorem canonical_installParams : Canonical installParams := by
  apply Canonical.object
  · exact List.pairwise_pair.mpr (by decide)
  · simp only [List.forall_mem_cons]
    exact ⟨.string _, .string _, List.forall_mem_nil _⟩

def installMessage : Message :=
  (Message.new ⟨0, 0⟩ "pkg.command.install").paramsRaw (asBytes (String.ofList (print installParams)))

theorem exists_handled (w : World) :
    ∃ w', exec (machine "/data/apps") (handleCommand grammarFormats.toFormats firstRegistry
      installMessage) w.clear [{}, {}, {}, {}, {}, {}] =
        some (.installed "com.uos.youtube", w', []) := by
  have params : installMessage.params = asBytes (String.ofList (print installParams)) := rfl
  have renders := (renders_print canonical_installParams).item_of_value
  rw [handleCommand, params, grammarFormats.fromSlice_of_renders renders]
  exact ⟨_, rfl⟩

/-- An app whose installation has succeeded is not listed. -/
theorem installed_not_listed : ∃ w reg, Run grammarFormats "/data/apps"
    [.installed "com.uos.youtube", .started] w (some reg) ∧
    ¬ Agrees grammarFormats "/data/apps" [.installed "com.uos.youtube", .started] w reg := by
  obtain ⟨w, reg, run, rfl, -⟩ := exists_started
  obtain ⟨w', handled⟩ := exists_handled w
  have installed := run.command handled
  refine ⟨w', firstRegistry, installed, fun agrees => ?_⟩
  have listed := (agrees.listed "com.uos.youtube").mpr (.inr (.inl rfl))
  rw [(installed.sound.2 firstRegistry rfl).1.mem_ids] at listed
  simp [systemApps] at listed

end Pkgd
