import ProofLedger.Json.Basic
import ProofLedger.Yaml.Node
import ProofLedger.Yaml.Scalar

/-!
# The value of a document

The tree of a document as a JSON value. Keys are texts, whatever they would mean as values, and of
equal keys the last counts. Collections are nested at most 128 deep, references followed, and
the number of references followed is bounded by the size of the document.
-/

namespace ProofLedger.Yaml

/-- The value of a scalar without a tag. -/
def untagged (text : List Char) (plain : Bool) : Json :=
  if plain then plainScalar text else .string (String.ofList text)

/-- The value of a scalar. -/
def scalarValue? (tag : Option Tag) (text : List Char) (plain : Bool) : Option Json :=
  let s := String.ofList text
  match tag with
  | none => some (untagged text plain)
  | some .truth => (truth? s).map .bool
  | some .integer => (wideInteger? text).map .int
  | some .double => (double? text).map .float
  | some .absent => if isNull s then some .null else none
  | some .plainText => some (.string s)
  | some (.under levels) => some ((untagged text plain).nest levels)

/-- The value of a collection, which no tag but a path changes. -/
def collectionValue (tag : Option Tag) (v : Json) : Json :=
  match tag with
  | some (.under levels) => v.nest levels
  | _ => v

namespace Node

/-- Counts the references that are followed, of which there may be only so many. -/
abbrev Following := StateT Nat Option

/-- A node, or the one that it refers to. -/
def resolve (targets : List (Nat × Node)) : Node → Following Node
  | reference number => do
    let left ← get
    if left = 0 then failure
    set (left - 1)
    liftM (targets.lookup number)
  | n => return n

/-- A node as a key. -/
def keyText (targets : List (Nat × Node)) (n : Node) : Following String := do
  match ← n.resolve targets with
  | scalar _ _ text _ => return String.ofList text
  | _ => failure

/-- The value of a node, whose collections may be nested to a depth. -/
def value (targets : List (Nat × Node)) (depth : Nat) (n : Node) : Following Json := do
  match ← n.resolve targets, depth with
  | scalar _ tag text plain, _ => liftM (scalarValue? tag text plain)
  | sequence _ tag items, depth + 1 =>
    return collectionValue tag (.array (← items.mapM (value targets depth)))
  | mapping _ tag entries, depth + 1 =>
    let fields ← entries.mapM fun (k, v) => do
      return (← k.keyText targets, ← value targets depth v)
    return collectionValue tag (.ofFields fields)
  | _, _ => failure

/-- The largest depth of nested collections. -/
def maxDepth : Nat := 128

/-- How many references may be followed for every unit of a document's size. -/
def maxFollowing : Nat := 100

/-- The value of a document whose root is a mapping, which may have any tag. An empty root is the
    mapping without entries. -/
def rootValue? (n : Node) : Option Json :=
  match n with
  | mapping anchor _ entries =>
    ((value n.anchors.reverse maxDepth (.mapping anchor none entries)).run
      (maxFollowing * n.size)).map (·.1)
  | scalar _ _ [] true => some .emptyObject
  | _ => none

end Node

end ProofLedger.Yaml
