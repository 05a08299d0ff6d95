/-!
# Access to files

The few operations on files that the library needs, over any monad, and the ways in which they
fail. Paths are texts with slashes.
-/

namespace ProofLedger

/-- Why an operation on a file failed. -/
inductive FileFault where
  | notFound
  | notDirectory
  | isDirectory
  | alreadyExists
  | nameTooLong
  | nulInName
  /-- the file is no UTF-8 text -/
  | notText
  | other (text : String)
  deriving DecidableEq, Repr, Inhabited

/-- The text of a fault, with the number of the system where it has one. -/
def FileFault.message : FileFault → String
  | .notFound => "No such file or directory (os error 2)"
  | .notDirectory => "Not a directory (os error 20)"
  | .isDirectory => "Is a directory (os error 21)"
  | .alreadyExists => "File exists (os error 17)"
  | .nameTooLong => "File name too long (os error 36)"
  | .nulInName => "file name contained an unexpected NUL byte"
  | .notText => "stream did not contain valid UTF-8"
  | .other text => text

/-- The operations on files. -/
structure FileAccess (m : Type → Type) where
  read : (path : String) → m (Except FileFault ByteArray)
  /-- replaces what a file holds, and makes the file if needed -/
  write : (path : String) → ByteArray → m (Except FileFault Unit)
  /-- moves a file to another path, over what is there -/
  rename : (path target : String) → m (Except FileFault Unit)
  /-- makes a directory and those above it -/
  createDirs : (path : String) → m (Except FileFault Unit)
  /-- removes a file, if it is there -/
  remove : (path : String) → m Unit

namespace FileAccess

variable {m : Type → Type} [Monad m]

/-- The text in a file. -/
def readText (files : FileAccess m) (path : String) : m (Except FileFault String) := do
  match ← files.read path with
  | .error f => return .error f
  | .ok bytes =>
    match String.fromUTF8? bytes with
    | some s => return .ok s
    | none => return .error .notText

end FileAccess

-- ── Paths ─────────────────────────────────────────────────────────────────────

namespace FilePath

/-- The path of a file below a directory; a path from the root stays as it is. -/
def below (directory path : String) : String :=
  if path.toList.head? = some '/' then path else directory ++ "/" ++ path

/-- A path, written backwards, without what adds no name at its end: slashes, and points that
    stand for the directory itself. -/
def withoutEnd : List Char → List Char
  | '/' :: r => withoutEnd r
  | '.' :: '/' :: r => withoutEnd r
  | cs => cs

/-- A path as the text up to its last name, with the slash, and that name. -/
def splitName (path : List Char) : List Char × List Char :=
  let backwards := withoutEnd path.reverse
  ((backwards.dropWhile (· != '/')).reverse, (backwards.takeWhile (· != '/')).reverse)

/-- The directory of a file, unless the path is only a name. -/
def parent? (path : String) : Option String :=
  let (front, _) := splitName path.toList
  if front.isEmpty then none
  else
    let shortened := (withoutEnd front.reverse).reverse
    some (String.ofList (if shortened.isEmpty then ['/'] else shortened))

/-- Whether a name says only where to go from a directory, or nothing. -/
def isStep (name : List Char) : Bool := name.isEmpty || name == ['.'] || name == ['.', '.']

/-- A name without its extension, which begins at the last point; a point in front begins none. -/
def stem (name : List Char) : List Char :=
  let tail := (name.reverse.takeWhile (· != '.')).length + 1
  if tail < name.length then name.take (name.length - tail) else name

/-- The number of characters of an extension, without its point. -/
def extensionLength (name : List Char) : Nat := name.length - (stem name).length - 1

/-- A path with another extension: the old one is taken off the end of the path, and what the
    rest names gets the new one. So `..a` keeps its two points and names the directory above. -/
def withExtension (extension path : String) : String :=
  let cs := path.toList
  let (_, name) := splitName cs
  if isStep name then path
  else
    let rest := cs.take (cs.length - extensionLength name)
    let (front, name) := splitName rest
    if isStep name then String.ofList rest
    else String.ofList (front ++ stem name) ++ "." ++ extension

end FilePath

end ProofLedger
