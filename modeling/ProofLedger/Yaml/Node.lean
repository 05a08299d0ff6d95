import ProofLedger.Yaml.Tag

/-!
# Nodes

A document is a tree of scalars, sequences and mappings. A node may be anchored under a number, and
another place may then refer to it. It may have a tag that says what kind of value it is.
-/

namespace ProofLedger.Yaml

/-- A node of a document. -/
inductive Node where
  /-- the node that is anchored under a number -/
  | reference (target : Nat)
  /-- a text; a plain one may mean something else than itself -/
  | scalar (anchor : Option Nat) (tag : Option Tag) (text : List Char) (plain : Bool)
  | sequence (anchor : Option Nat) (tag : Option Tag) (items : List Node)
  | mapping (anchor : Option Nat) (tag : Option Tag) (entries : List (Node × Node))

namespace Node

/-- The node where nothing is written. -/
def empty : Node := .scalar none none [] true

/-- The number that a node is anchored under. -/
def anchor? : Node → Option Nat
  | reference _ => none
  | scalar a _ _ _ => a
  | sequence a _ _ => a
  | mapping a _ _ => a

/-- A node under its number, if it has one. -/
def anchored (n : Node) : List (Nat × Node) := (n.anchor?.map fun a => (a, n)).toList

mutual

/-- The anchored nodes of a tree, in the order of the document. -/
def anchors (n : Node) : List (Nat × Node) :=
  n.anchored ++
    match n with
    | reference _ => []
    | scalar _ _ _ _ => []
    | sequence _ _ items => anchorsOfItems items
    | mapping _ _ entries => anchorsOfEntries entries

/-- The anchored nodes of items. -/
def anchorsOfItems : List Node → List (Nat × Node)
  | [] => []
  | n :: r => n.anchors ++ anchorsOfItems r

/-- The anchored nodes of entries. -/
def anchorsOfEntries : List (Node × Node) → List (Nat × Node)
  | [] => []
  | (k, v) :: r => k.anchors ++ v.anchors ++ anchorsOfEntries r

end

mutual

/-- The size of a tree: one for a scalar or a reference, two for a collection. -/
def size : Node → Nat
  | reference _ => 1
  | scalar _ _ _ _ => 1
  | sequence _ _ items => 2 + sizeOfItems items
  | mapping _ _ entries => 2 + sizeOfEntries entries

/-- The size of items. -/
def sizeOfItems : List Node → Nat
  | [] => 0
  | n :: r => n.size + sizeOfItems r

/-- The size of entries. -/
def sizeOfEntries : List (Node × Node) → Nat
  | [] => 0
  | (k, v) :: r => k.size + v.size + sizeOfEntries r

end

end Node

end ProofLedger.Yaml
