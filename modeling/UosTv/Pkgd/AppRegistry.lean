import UosTv.Pkgd.Operations
import UosTv.Rust.Collections
import UosTv.Serde.Pretty

/-!
The registry of apps (`registry.rs`) and what the package manager does with it (`main.rs`).

The registry is read from `registry.json` when the package manager starts, completed by the apps
of the system and saved. `install` and `uninstall` work on the directory of an app.
-/

namespace Pkgd

open Effect Rust SerdeJson Stardust

/-! ### Entries -/

structure AppEntry where
  id : String
  name : String
  version : String
  appType : String
  url : Option String
  icon : Option String
  permissions : List String
deriving DecidableEq, Repr

namespace AppEntry

/-- The fields as they are written. -/
def fields (app : AppEntry) : List (String × Value) := [
  ("id", Serde.toValue app.id),
  ("name", Serde.toValue app.name),
  ("version", Serde.toValue app.version),
  ("app_type", Serde.toValue app.appType),
  ("url", Serde.toValue app.url),
  ("icon", Serde.toValue app.icon),
  ("permissions", Serde.toValue app.permissions)]

/-- The fields as they are read. Options may be missing. -/
def ofFields (entries : List (String × Value)) : Option AppEntry := do
  let id ← field entries "id"
  let name ← field entries "name"
  let version ← field entries "version"
  let appType ← field entries "app_type"
  let url ← fieldOr none entries "url"
  let icon ← fieldOr none entries "icon"
  let permissions ← field entries "permissions"
  pure { id, name, version, appType, url, icon, permissions }

theorem distinct_fields (app : AppEntry) : (app.fields.map (·.1)).Nodup := by
  simp [fields]

instance : Serde AppEntry where
  toValue app := record app.fields
  fromValue
    | .object entries => ofFields entries
    | .array [id, name, version, appType, url, icon, permissions] => ofFields [
        ("id", id), ("name", name), ("version", version), ("app_type", appType), ("url", url),
        ("icon", icon), ("permissions", permissions)]
    | _ => none
  fromValue_toValue app := by
    simp only [record, ofFields, field, fieldOr, get_collect app.distinct_fields]
    simp [fields]

theorem canonical_fields (app : AppEntry) : ∀ e ∈ app.fields, Canonical e.2 := by
  have permissions : Canonical (Serde.toValue app.permissions) :=
    canonical_list fun s _ => .string s
  simp only [fields, List.forall_mem_cons]
  exact ⟨.string _, .string _, .string _, .string _, canonical_optionString _,
    canonical_optionString _, permissions, List.forall_mem_nil _⟩

end AppEntry

/-- A table of apps as it is written. -/
def prettyApps (apps : HashMap String AppEntry) : Bytes :=
  asBytes (String.ofList (prettyObject 0 (apps.entries.map fun e => (e.1, prettyRecord 1 e.2.fields))))

/-- The entries of a table of apps. -/
def readEntries (entries : List (String × Value)) : Option (List (String × AppEntry)) :=
  entries.mapM fun e => (Serde.fromValue e.2).map fun app => (e.1, app)

/-- `serde_json::from_slice` to a table of apps. -/
def readApps (formats : Formats) (bytes : Bytes) : Option (HashMap String AppEntry) :=
  match formats.fromSlice bytes with
  | .ok (.object entries) => (readEntries entries).map HashMap.collect
  | _ => none

/-! ### The registry -/

structure AppRegistry where
  appsDir : String
  apps : HashMap String AppEntry
  registryFile : String

/-- The built-in apps. -/
def systemApps : List AppEntry := [
  { id := "com.uos.luna"
    name := "Home"
    version := "1.0.0"
    appType := "webapp"
    url := some "http://localhost:8080"
    icon := some "luna.png"
    permissions := ["system"] },
  { id := "com.uos.settings"
    name := "Settings"
    version := "1.0.0"
    appType := "webapp"
    url := some "http://localhost:8080/settings"
    icon := some "settings.png"
    permissions := ["system", "network"] }]

namespace AppRegistry

variable (formats : Formats) (reg : AppRegistry)

/-- `save`. The parent of the file is the directory of the apps. -/
def save : M Unit := do
  let _ ← createDirAll reg.appsDir
  let _ ← write reg.registryFile (prettyApps reg.apps)

/-- The registry with the apps of the system, where there is no entry of that id. -/
def withSystemApps : AppRegistry :=
  { reg with apps := systemApps.foldl (fun apps app => apps.orInsert app.id app) reg.apps }

/-- `discover_system_apps`. -/
def discoverSystemApps : M AppRegistry := do
  reg.withSystemApps.save
  pure reg.withSystemApps

/-- The apps read from a file, if it is found. -/
def loadApps (registryFile : String) : M (HashMap String AppEntry) := do
  if ← pathExists registryFile then
    let content ← read registryFile
    pure ((readApps formats (content.toOption.getD [])).getD ∅)
  else pure ∅

/-- `new`. -/
def new (appsDir : String) : M AppRegistry := do
  let registryFile := join appsDir "registry.json"
  let apps ← loadApps formats registryFile
  discoverSystemApps { appsDir, apps, registryFile }

def list : List AppEntry := reg.apps.entries.map (·.2)

/-- The manifest that stands in for that of the package. -/
def manifest (id url : String) : Value := record [
  ("id", .string id),
  ("name", .string id),
  ("version", .string "1.0.0"),
  ("type", .string "webapp"),
  ("url", .string url),
  ("permissions", .array [])]

/-- The `?` of `install`. The error is kept as its text. -/
def orFail {α : Type} (p : M (Except String α)) : ExceptT String (Prog Op Ans) α :=
  attempt (fun e => e) p

/-- `install`. The hash of the package is computed and not used. -/
def install (id url : String) : ExceptT String (Prog Op Ans) Unit := do
  let appDir := join reg.appsDir id
  orFail (createDirAll appDir)
  let response ← orFail (get url)
  orFail (write (join appDir "bundle.uosp") response)
  orFail (write (join appDir "manifest.json") (asBytes (String.ofList (pretty 0 (manifest id url)))))

def uninstall (id : String) : M Unit := do
  let appDir := join reg.appsDir id
  if ← pathExists appDir then
    let _ ← removeDirAll appDir
  else pure ()

end AppRegistry

/-! ### Commands -/

/-- `publish_app_list`. -/
def publishAppList (formats : Formats) (reg : AppRegistry) : M Unit := do
  let stamp ← stamp
  match ((Message.new stamp "pkg.app_list").withSrc "pkgd").param formats "apps"
      (Serde.toValue reg.list) with
  | .ok msg => publish msg
  | .error _ => pure ()

/-- A parameter that should be a text. -/
def textAt (params : Value) (key : String) : String :=
  match params with
  | .object entries =>
    match SerdeJson.get entries key with
    | some (.string s) => s
    | _ => ""
  | _ => ""

/-- What has been done for a message, or what has happened to the package manager. -/
inductive Done where
  | started
  | installed (id : String)
  | notInstalled (id : String)
  | uninstalled (id : String)
  | nothing
deriving DecidableEq, Repr

/-- `handle_command`, which here also returns what has been done. -/
def handleCommand (formats : Formats) (reg : AppRegistry) (msg : Message) : M Done :=
  match formats.fromSlice msg.params with
  | .error _ => pure .nothing
  | .ok params =>
    if msg.method = "pkg.command.install" then do
      match ← (reg.install (textAt params "id") (textAt params "url")).run with
      | .ok () =>
        publishAppList formats reg
        pure (.installed (textAt params "id"))
      | .error _ => pure (.notInstalled (textAt params "id"))
    else if msg.method = "pkg.command.uninstall" then do
      reg.uninstall (textAt params "id")
      publishAppList formats reg
      pure (.uninstalled (textAt params "id"))
    else if msg.method = "pkg.command.list" then do
      publishAppList formats reg
      pure .nothing
    else pure .nothing

/-- What `main` does before the first command. -/
def start (formats : Formats) (appsDir : String) : M AppRegistry := do
  let reg ← AppRegistry.new formats appsDir
  if ← connect then
    publishAppList formats reg
  pure reg

end Pkgd
