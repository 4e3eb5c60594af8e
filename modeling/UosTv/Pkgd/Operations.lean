import UosTv.Lib.Fallible
import UosTv.Rust.Hex
import UosTv.Stardust.Params

/-!
What the package manager does to its surroundings: files, downloads and the bus.

Of the files only `registry.json` is kept, as no other is ever read. Two paths are the same file
iff they are the same text, and nobody else writes the file. Whether a path is found is a choice
of the environment, since a directory may stand in the place of the file, and so is whether a
directory that is removed has `registry.json` in it.
-/

namespace Pkgd

open Effect Rust Stardust

/-- The operations. -/
inductive Op where
  | pathExists (path : String)
  | createDirAll (path : String)
  | removeDirAll (path : String)
  | read (path : String)
  | write (path : String) (bytes : Bytes)
  | get (url : String)
  | connect
  | stamp
  | publish (msg : Message)

/-- The answers. -/
def Ans : Op → Type
  | .pathExists _ | .connect => Bool
  | .createDirAll _ | .removeDirAll _ | .write _ _ => Except String Unit
  | .read _ | .get _ => Except String Bytes
  | .stamp => Stamp
  | .publish _ => Unit

abbrev M := Prog Op Ans

/-- Issues one operation. -/
def call (o : Op) : M (Ans o) := Prog.perform o

def pathExists (path : String) : M Bool := call (.pathExists path)

def createDirAll (path : String) : M (Except String Unit) := call (.createDirAll path)

def removeDirAll (path : String) : M (Except String Unit) := call (.removeDirAll path)

/-- `std::fs::read`. -/
def read (path : String) : M (Except String Bytes) := call (.read path)

/-- `std::fs::write`. -/
def write (path : String) (bytes : Bytes) : M (Except String Unit) := call (.write path bytes)

/-- `reqwest::get`, and the bytes of the response. -/
def get (url : String) : M (Except String Bytes) := call (.get url)

/-- `Client::connect`, and the subscription to the commands. -/
def connect : M Bool := call .connect

/-- What `Message::new` takes from its surroundings. -/
def stamp : M Stamp := call .stamp

def publish (msg : Message) : M Unit := call (.publish msg)

/-! ### The world -/

/-- What happens to `registry.json`: all that was to be written is in it, or some is missing, or
it is removed. -/
inductive FileEvent where
  | saved
  | damaged
  | removed
deriving DecidableEq, Repr

structure World where
  /-- What is in `registry.json`, if there is such a file. -/
  registry : Option Bytes := none
  /-- What has happened to it, the last first. -/
  log : List FileEvent := []
  /-- What has been published, the last first. -/
  outbox : List Message := []

/-- A choice of the environment: the error with which an operation fails if it does, how many of
the bytes have got into the file by then if it has been opened, whether a path is found, whether
`registry.json` is removed with a directory, and what is downloaded. -/
structure Choice where
  failure : Option String := none
  written : Option Nat := none
  found : Bool := false
  removes : Bool := false
  body : Bytes := []
  stamp : Stamp := ⟨0, 0⟩

namespace World

/-- The first `n` of the bytes are written to `registry.json`. -/
def put (w : World) (bytes : Bytes) (n : Nat) : World where
  registry := some (bytes.take n)
  log := (if n < bytes.length then .damaged else .saved) :: w.log
  outbox := w.outbox

def remove (w : World) : World := { w with registry := none, log := .removed :: w.log }

/-- Nothing has been published. -/
def clear (w : World) : World := { w with outbox := [] }

end World

/-- The answer of a call that may fail. -/
def answer {α : Type} (failure : Option String) (result : α) : Except String α :=
  failure.elim (.ok result) .error

/-- A path that cannot be opened. -/
def noSuchFile : String := "No such file or directory (os error 2)"

def actRead (w : World) : Option String → Except String Bytes
  | none => w.registry.elim (.error noSuchFile) .ok
  | some e => .error e

/-- Writing `registry.json`. When it fails the file is as it was, or holds some of the bytes. -/
def actWrite (w : World) (bytes : Bytes) (choice : Choice) : Except String Unit × World :=
  match choice.failure with
  | none => (.ok (), w.put bytes bytes.length)
  | some e => (.error e, choice.written.elim w (w.put bytes))

/-- What an operation does. -/
def act (registryFile : String) : Machine Op Ans World Choice := fun w o choice =>
  match o with
  | .pathExists _ => some (choice.found, w)
  | .createDirAll _ => some (answer choice.failure (), w)
  | .removeDirAll _ => some (answer choice.failure (), if choice.removes then w.remove else w)
  | .read path =>
    if path = registryFile then some (actRead w choice.failure, w)
    else some (answer choice.failure choice.body, w)
  | .write path bytes =>
    if path = registryFile then some (actWrite w bytes choice)
    else some (answer choice.failure (), w)
  | .get _ => some (answer choice.failure choice.body, w)
  | .connect => some (choice.found, w)
  | .stamp => some (choice.stamp, w)
  | .publish msg => some ((), { w with outbox := msg :: w.outbox })

end Pkgd
