import UosTv.Lib.Fallible
import UosTv.Rust.Collections
import UosTv.UpdateVerify.Bundle

/-!
What the update daemon does to its surroundings: files, the update server, RAUC, the bundle
verifier, its own state and the bus.

Operations are calls of the components that `Orchestrator` and `Downloader` hold; a RAUC
command is one operation, answered by what `RaucClient` makes of its output. Paths and URLs
are texts, and two paths are the same file iff they are the same text. Nobody else writes the
files. `log` keeps what the claims about runs speak of, the newest entry first.
-/

namespace Otad

open Effect Rust UpdateVerify

/-- `reqwest::Response`, before its body is read. -/
structure Response where
  status : Nat
  contentLength : Option Nat := none
deriving DecidableEq, Repr, Inhabited

structure Request where
  url : String
  range : Option String := none
deriving DecidableEq, Repr

/-- What the server says of an update. -/
structure UpdateInfo where
  version : String
  channel : String
  timestamp : UInt64
  critical : Bool := false
  description : String := ""
  downloadUrl : Option String := none
  caibxUrl : Option String := none
  sha256 : String
  size : UInt64
  deltaSize : Option UInt64 := none
  signature : String
deriving DecidableEq, Repr, Inhabited

inductive OtaState where
  | idle
  | checking
  | updateAvailable (version : String) (sizeBytes : UInt64) (critical : Bool)
  | noUpdate
  | downloading (version : String) (progressPercent : Nat)
  | downloaded (version path : String)
  | verifying (version : String)
  | installing (version : String)
  | waitingReboot (version : String)
  | rebooting
  | error (message : String)
deriving DecidableEq, Repr

/-- The errors of `rauc-rs` that its commands end with. -/
inductive RaucError where
  | io (cause : String)
  | commandFailed (stderr : String)
  | json (cause : String)
deriving DecidableEq, Repr

/-- `SlotStatus`, of which the daemon reads the version of the slot that is active. -/
structure SlotStatus where
  version : Option String
  active : Bool
deriving DecidableEq, Repr

/-- What a notification tells. -/
inductive Payload where
  | stateChanged (state previous : OtaState)
  | updateReady (version path : String)
  | message (text : String)
deriving DecidableEq, Repr

/-- The operations. -/
inductive Op (Value : Type) where
  | createDirAll (path : String)
  | pathExists (path : String)
  | fileLen (path : String)
  | append (path : String) (bytes : Bytes)
  | write (path : String) (bytes : Bytes)
  | read (path : String)
  | removeFile (path : String)
  | send (request : Request)
  | json (response : Response)
  | body (response : Response)
  | progress (downloaded total : Nat)
  | raucStatus
  | raucInfo (path : String)
  | raucInstall (path : String)
  | verifyBundle (signed : SignedBundle Value) (currentVersion : Option String)
  | state
  | setState (state : OtaState)
  | publish (method : String) (payload : Payload)
  | sleep (duration : Nat)
  | interval (secs : Nat)
  | reboot

variable {Key Value : Type}

/-- The answers. -/
def Ans : Op Value → Type
  | .createDirAll _ | .append _ _ | .write _ _ | .removeFile _ => Except String Unit
  | .pathExists _ => Bool
  | .fileLen _ => Except String Nat
  | .read _ | .body _ => Except String Bytes
  | .send _ => Except String Response
  | .json _ => Except String UpdateInfo
  | .raucStatus => Except RaucError (List SlotStatus)
  | .raucInfo _ | .raucInstall _ => Except RaucError Unit
  | .verifyBundle _ _ => Except UpdateVerify.Error BundleMetadata
  | .state => OtaState
  | .progress _ _ | .setState _ | .publish _ _ | .sleep _ | .interval _ | .reboot => Unit

abbrev M (Value : Type) := Prog (Op Value) Ans

/-- Issues one operation. -/
def call (o : Op Value) : M Value (Ans o) := Prog.perform o

def createDirAll (path : String) : M Value (Except String Unit) := call (.createDirAll path)

def pathExists (path : String) : M Value Bool := call (.pathExists path)

def fileLen (path : String) : M Value (Except String Nat) := call (.fileLen path)

/-- Opens a file that exists and writes at its end. -/
def append (path : String) (bytes : Bytes) : M Value (Except String Unit) :=
  call (.append path bytes)

/-- `tokio::fs::write`. -/
def write (path : String) (bytes : Bytes) : M Value (Except String Unit) := call (.write path bytes)

def read (path : String) : M Value (Except String Bytes) := call (.read path)

def removeFile (path : String) : M Value (Except String Unit) := call (.removeFile path)

def send (request : Request) : M Value (Except String Response) := call (.send request)

def json (response : Response) : M Value (Except String UpdateInfo) := call (.json response)

def body (response : Response) : M Value (Except String Bytes) := call (.body response)

def progress (downloaded total : Nat) : M Value Unit := call (.progress downloaded total)

/-- The slots of `RaucClient::status`. -/
def raucStatus : M Value (Except RaucError (List SlotStatus)) := call .raucStatus

/-- `RaucClient::verify_bundle`, which runs `rauc info`. -/
def raucInfo (path : String) : M Value (Except RaucError Unit) := call (.raucInfo path)

/-- `RaucClient::install`, with the default options. -/
def raucInstall (path : String) : M Value (Except RaucError Unit) := call (.raucInstall path)

def state : M Value OtaState := call .state

def putState (new : OtaState) : M Value Unit := call (.setState new)

def publish (method : String) (payload : Payload) : M Value Unit := call (.publish method payload)

/-- `std::thread::sleep`, in milliseconds. -/
def sleep (duration : Nat) : M Value Unit := call (.sleep duration)

/-- `tokio::time::sleep`, between two polls. -/
def interval (secs : Nat) : M Value Unit := call (.interval secs)

def reboot : M Value Unit := call .reboot

/-! ### The world -/

inductive Entry where
  | status (slots : List SlotStatus)
  | state (state : OtaState)
  | info (path : String) (accepted : Bool)
  | install (path : String)
  | verified (currentVersion : Option String) (m : BundleMetadata)
  | reboot
deriving DecidableEq, Repr

structure World where
  files : HashMap String Bytes
  state : OtaState
  log : List Entry

/-- A choice of the environment: the error with which an operation fails if it does, how
much of the bytes to be written has got into the file if not all, the replies of the server
and of RAUC, and the time. -/
structure Choice where
  failure : Option String := none
  written : Option Nat := none
  response : Response := default
  info : UpdateInfo := default
  body : Bytes := []
  rauc : Option RaucError := none
  slots : List SlotStatus := []
  now : UInt64 := 0
deriving Inhabited

/-- What the daemon is given: the verifier, the functions it rests on, and whether overflows
are checked. -/
structure Setup (Key Value : Type) where
  prims : Primitives Key Value
  verifier : BundleVerifier Key
  checks : Bool := false

namespace World

def note (w : World) (entry : Entry) : World := { w with log := entry :: w.log }

def put (w : World) (path : String) (bytes : Bytes) : World :=
  { w with files := w.files.insert path bytes }

/-- The start of a run: nothing has been logged. -/
def begin (w : World) : World := { w with log := [] }

end World

/-- A file that does not exist cannot be opened. -/
def noSuchFile : String := "No such file or directory (os error 2)"

/-- A call that may fail and changes nothing. -/
def answer {α ε : Type} (failure : Option ε) (result : α) (w : World) :
    Option (Except ε α × World) :=
  some (failure.elim (.ok result) .error, w)

/-- A call on the content of a file. -/
def onFile {α : Type} (w : World) (path : String) (failure : Option String) (f : Bytes → α) :
    Option (Except String α × World) :=
  match failure, w.files.get path with
  | some e, _ => some (.error e, w)
  | none, none => some (.error noSuchFile, w)
  | none, some content => some (.ok (f content), w)

/-- Appending. The last bytes are handed to a thread and the file is not flushed, so some may
be missing in the file although no error is returned. -/
def actAppend (w : World) (path : String) (bytes : Bytes) (choice : Choice) :
    Option (Except String Unit × World) :=
  match w.files.get path with
  | none => some (.error (choice.failure.getD noSuchFile), w)
  | some content =>
    answer choice.failure () (w.put path (content ++ bytes.take (choice.written.getD bytes.length)))

/-- Writing. When it fails the file is as it was, or holds some of the bytes. -/
def actWrite (w : World) (path : String) (bytes : Bytes) (choice : Choice) :
    Option (Except String Unit × World) :=
  match choice.failure with
  | none => some (.ok (), w.put path bytes)
  | some e => some (.error e, choice.written.elim w fun n => w.put path (bytes.take n))

def actRemove (w : World) (path : String) (failure : Option String) :
    Option (Except String Unit × World) :=
  match failure with
  | none => some (.ok (), { w with files := w.files.remove path })
  | some e => some (.error e, w)

def actStatus (w : World) (choice : Choice) : Option (Except RaucError (List SlotStatus) × World) :=
  match choice.rauc with
  | none => some (.ok choice.slots, w.note (.status choice.slots))
  | some e => some (.error e, w)

def actVerify (w : World) (currentVersion : Option String) :
    Option (Except UpdateVerify.Error BundleMetadata) →
      Option (Except UpdateVerify.Error BundleMetadata × World)
  | none => none
  | some (.error e) => some (.error e, w)
  | some (.ok m) => some (.ok m, w.note (.verified currentVersion m))

/-- What an operation does. A reboot that succeeds does not return; what the daemon logs
after it stands for runs in which it has failed. -/
def act (setup : Setup Key Value) : Machine (Op Value) Ans World Choice := fun w o choice =>
  match o with
  | .createDirAll _ => answer choice.failure () w
  | .pathExists path => some ((w.files.get path).isSome && choice.failure.isNone, w)
  | .fileLen path => onFile w path choice.failure List.length
  | .append path bytes => actAppend w path bytes choice
  | .write path bytes => actWrite w path bytes choice
  | .read path => onFile w path choice.failure id
  | .removeFile path => actRemove w path choice.failure
  | .send _ => answer choice.failure choice.response w
  | .json _ => answer choice.failure choice.info w
  | .body _ => answer choice.failure choice.body w
  | .progress _ _ => some ((), w)
  | .raucStatus => actStatus w choice
  | .raucInfo path => answer choice.rauc () (w.note (.info path choice.rauc.isNone))
  | .raucInstall path => answer choice.rauc () (w.note (.install path))
  | .verifyBundle signed currentVersion => actVerify w currentVersion
      (setup.verifier.verifyBundle setup.prims setup.checks choice.now signed currentVersion)
  | .state => some (w.state, w)
  | .setState new => some ((), { w.note (.state new) with state := new })
  | .publish _ _ => some ((), w)
  | .sleep _ => some ((), w)
  | .interval _ => some ((), w)
  | .reboot => some ((), w.note .reboot)

end Otad
