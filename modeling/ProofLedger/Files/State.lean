import ProofLedger.Files.Access
import ProofLedger.Json.Printer
import ProofLedger.Json.Reader
import ProofLedger.StateStore

/-!
# The state file

The state tree is kept in a JSON file. A file that is missing or blank holds the empty tree. The
file is replaced as a whole, by way of a file beside it, so that it never holds half a tree.
-/

namespace ProofLedger

/-- Why the state could not be read or written. -/
inductive StateFault where
  | unreadable (path : String) (f : FileFault)
  | unwritable (path : String) (f : FileFault)
  /-- the file is not JSON -/
  | corrupt (path : String)
  deriving DecidableEq, Repr

namespace StateFault

/-- The text of a fault. -/
def message : StateFault → String
  | .unreadable path f => "Failed to read state file " ++ path ++ ": " ++ f.message
  | .unwritable path f => "Failed to write state file " ++ path ++ ": " ++ f.message
  | .corrupt path => "State file " ++ path ++ " is not valid JSON"

/-- A fault as a failed call across the boundary. -/
def toFailure (f : StateFault) : Failure := .storeFailed f.message

end StateFault

namespace StateFile

/-- Whether bytes are blanks of ASCII only. -/
def isBlank (bytes : ByteArray) : Bool :=
  bytes.toList.all fun b => b == 0x20 || b == 0x09 || b == 0x0A || b == 0x0C || b == 0x0D

/-- The tree that bytes hold. -/
def decode? (bytes : ByteArray) : Option Json :=
  if isBlank bytes then some .null else (String.fromUTF8? bytes).bind Json.parse?

/-- The bytes that hold a tree. -/
def encode (tree : Json) : ByteArray := tree.pretty.toUTF8

/-- The path of the file that is written first. -/
def draftPath (path : String) : String := FilePath.withExtension "tmp" path

variable {m : Type → Type} [Monad m]

/-- The tree in a state file. -/
def read (files : FileAccess m) (path : String) : ExceptT StateFault m Json := do
  match ← files.read path with
  | .error .notFound => return .null
  | .error f => throw (.unreadable path f)
  | .ok bytes =>
    match decode? bytes with
    | some tree => return tree
    | none => throw (.corrupt path)

/-- A file operation on the way to a new state file. -/
def writing (path : String) (operation : m (Except FileFault Unit)) : ExceptT StateFault m Unit :=
  do
  match ← operation with
  | .ok () => return
  | .error f => throw (.unwritable path f)

/-- Replaces a state file. -/
def write (files : FileAccess m) (path : String) (tree : Json) : ExceptT StateFault m Unit := do
  match FilePath.parent? path with
  | some directory => writing path (files.createDirs directory)
  | none => pure ()
  writing path (files.write (draftPath path) (encode tree))
  match ← files.rename (draftPath path) path with
  | .ok () => return
  | .error f =>
    files.remove (draftPath path)
    throw (.unwritable path f)

/-- Applies patches to a state file; without patches the file is not touched. -/
def apply (files : FileAccess m) (path : String) (patches : List Patch) :
    ExceptT StateFault m Unit := do
  if patches.isEmpty then return
  let tree ← read files path
  write files path (Patch.applyAll patches tree)

/-- The state in a state file. -/
def snapshot (files : FileAccess m) (path : String) : ExceptT StateFault m ProofState := do
  return .ofJson (← read files path)

/-- A state file as a store. -/
def store (files : FileAccess m) (path : String) : StateStore m where
  snapshot := (snapshot files path).adapt StateFault.toFailure
  apply patches := (apply files path patches).adapt StateFault.toFailure

end StateFile

end ProofLedger
