/-!
# Tags

What the tag of a node makes of its value. Four standard tags demand a kind of scalar. A tag of a
document's own, which begins with a mark, puts the value under keys: it is a path, whose levels are
separated by points. Any other tag makes a scalar a text and changes no collection.
-/

namespace ProofLedger.Yaml

/-- What a tag makes of a value. -/
inductive Tag where
  /-- a scalar is a truth value -/
  | truth
  /-- a scalar is an integer -/
  | integer
  /-- a scalar is a double -/
  | double
  /-- a scalar is the absence of a value -/
  | absent
  /-- a scalar is a text -/
  | plainText
  /-- the value stands under keys, the outermost first -/
  | under (levels : List String)
  deriving DecidableEq, Repr

namespace Tag

/-- The beginning of the standard tags. -/
def standard : String := "tag:yaml.org,2002:"

/-- The text with the bytes that characters number. -/
def decode? (bytes : List Char) : Option String :=
  String.fromUTF8? (bytes.map Char.toUInt8).toByteArray

/-- The levels of a path up to its first empty one. -/
def pathLevels (path : String) : List String :=
  ((path.toList.splitOn '.').takeWhile (!·.isEmpty)).map String.ofList

/-- The tag that is written in full with given bytes. After the mark of a document's own tags
    stands their path, and the mark alone is its own path; if the path is no text, the tag says
    nothing. -/
def ofBytes? (bytes : List Char) : Option Tag :=
  match bytes with
  | ['!'] => some (under ["!"])
  | '!' :: path => (decode? path).map fun p => under (pathLevels p)
  | _ =>
    if bytes == (standard ++ "bool").toList then some truth
    else if bytes == (standard ++ "int").toList then some integer
    else if bytes == (standard ++ "float").toList then some double
    else if bytes == (standard ++ "null").toList then some absent
    else some plainText

end Tag

end ProofLedger.Yaml
