import ProofLedger.Files.Access
import ProofLedger.Table

/-!
# File trees

Files and directories as a value. Paths are walked from the working directory, or from the root
if they begin with a slash; the directories above the working directory are taken to be empty but
for it.
-/

namespace ProofLedger

/-- Files with their bytes, and directories without, by their paths. The directories above a file
    need no entry of their own. -/
structure FileTree where
  nodes : Table (Option ByteArray) := .empty

namespace FileTree

/-- The path of walked names. -/
def pathOf (names : List String) : String := "/".intercalate names

/-- Whether names lead to a directory. The working directory, those above it and the root always
    are there. -/
def isDirectory (t : FileTree) (names : List String) : Bool :=
  let path := pathOf names
  path.isEmpty || names.all (· == "..") || t.nodes.entries.any fun (key, node) =>
    key == path && node.isNone || (path ++ "/").isPrefixOf key

/-- The bytes of a file. -/
def bytes? (t : FileTree) (names : List String) : Option ByteArray :=
  (t.nodes.get? (pathOf names)).bind id

/-- The largest number of bytes in a name. -/
def maxName : Nat := 255

/-- The largest number of bytes in a path. -/
def maxPath : Nat := 4095

/-- Takes one step from a directory. -/
def descend (t : FileTree) (names : List String) (name : String) :
    Except FileFault (List String) :=
  if !t.isDirectory names then
    .error (if (t.bytes? names).isSome then .notDirectory else .notFound)
  else if name.isEmpty || name == "." then .ok names
  else if name == ".." then
    if names == [""] then .ok names
    else if names.all (· == "..") then .ok (names ++ [".."])
    else .ok names.dropLast
  else if maxName < name.utf8ByteSize then .error .nameTooLong
  else .ok (names ++ [name])

/-- The names that a path leads to. Only the last of them may be missing. -/
def locate (t : FileTree) (path : String) : Except FileFault (List String) :=
  if path.toList.contains '\x00' then .error .nulInName
  else if path.isEmpty then .error .notFound
  else if maxPath < path.utf8ByteSize then .error .nameTooLong
  else
    match (path.toList.splitOn '/').map String.ofList with
    | "" :: names => names.foldlM t.descend [""]
    | names => names.foldlM t.descend []

/-- The bytes of a file. -/
def read (t : FileTree) (path : String) : Except FileFault ByteArray := do
  let names ← t.locate path
  if t.isDirectory names then .error .isDirectory
  else
    match t.bytes? names with
    | some bytes => .ok bytes
    | none => .error .notFound

/-- The tree with a file written. -/
def write (t : FileTree) (path : String) (bytes : ByteArray) : Except FileFault FileTree := do
  let names ← t.locate path
  if t.isDirectory names then .error .isDirectory
  else .ok { nodes := t.nodes.insert (pathOf names) (some bytes) }

/-- The tree without a file. -/
def remove (t : FileTree) (path : String) : FileTree :=
  match t.locate path with
  | .ok names =>
    if (t.bytes? names).isSome then { nodes := t.nodes.erase (pathOf names) } else t
  | .error _ => t

/-- The tree with a file moved. A file cannot take the place of a path that ends in a slash. -/
def rename (t : FileTree) (path target : String) : Except FileFault FileTree := do
  let bytes ← t.read path
  let names ← t.locate path
  let goal ← t.locate (String.ofList (target.toList.reverse.dropWhile (· == '/')).reverse)
  if target.toList.getLast? = some '/' then .error .notDirectory
  else if t.isDirectory goal then .error .isDirectory
  else .ok { nodes := (t.nodes.erase (pathOf names)).insert (pathOf goal) (some bytes) }

/-- The tree with a directory. -/
def createDir (t : FileTree) (names : List String) : Except FileFault FileTree :=
  if t.isDirectory names then .ok t
  else if (t.bytes? names).isSome then .error .alreadyExists
  else .ok { nodes := t.nodes.insert (pathOf names) none }

/-- The tree with a directory and those above it. -/
def createDirs (t : FileTree) (path : String) : Except FileFault FileTree :=
  let names := (path.toList.splitOn '/').map String.ofList
  let start := if names.head? = some "" then [""] else []
  let made := names.foldlM (fun ((t, at_) : FileTree × List String) name => do
    let next ← t.descend at_ name
    return (← t.createDir next, next)) (t, start)
  made.map (·.1)

/-- Keeps the tree that an operation makes. -/
def keep (operation : FileTree → Except FileFault FileTree) :
    StateM FileTree (Except FileFault Unit) := do
  match operation (← get) with
  | .ok t =>
    set t
    return .ok ()
  | .error f => return .error f

/-- Access to the files of a tree. -/
def access : FileAccess (StateM FileTree) where
  read path := do return (← get).read path
  write path bytes := keep fun t => t.write path bytes
  rename path target := keep fun t => t.rename path target
  createDirs path := keep fun t => t.createDirs path
  remove path := modify fun t => t.remove path

end FileTree

end ProofLedger
