import ProofLedger.Json.Record

/-!
# Declarations

A top-level declaration of a source file: its kind, its name, the statement it asserts, and the
lines of its block.
-/

namespace ProofLedger

/-- The kinds of declarations that are tracked. -/
inductive DeclarationKind where
  | theorem_
  | lemma_
  | example_
  | definition
  deriving DecidableEq, Repr, Inhabited

namespace DeclarationKind

/-- The name of a kind. -/
def name : DeclarationKind → String
  | .theorem_ => "theorem"
  | .lemma_ => "lemma"
  | .example_ => "example"
  | .definition => "definition"

/-- The kind a keyword introduces. -/
def ofKeyword? (keyword : String) : Option DeclarationKind :=
  match keyword with
  | "theorem" => some .theorem_
  | "lemma" => some .lemma_
  | "example" => some .example_
  | "def" | "definition" => some .definition
  | _ => none

/-- Whether declarations of this kind have to be proved. -/
def isProof (k : DeclarationKind) : Bool := k != .definition

/-- A kind in JSON. -/
def toJson (k : DeclarationKind) : Json := .string k.name

/-- Reads a kind from JSON. -/
def ofJson? : Json → Option DeclarationKind :=
  Json.asConstant? (Json.constantNamed name [.theorem_, .lemma_, .example_, .definition])

end DeclarationKind

/-- A declaration and the lines of its block, which count from one. -/
structure Declaration where
  startLine : Nat
  endLine : Nat
  kind : DeclarationKind
  label : String
  statement : Option String := none
  isProof : Bool
  /-- whether the declaration has a body -/
  hasBody : Bool
  deriving DecidableEq, Repr, Inhabited

namespace Declaration

/-- Whether a line lies in the block of a declaration. -/
def containsLine (d : Declaration) (line : UInt32) : Bool :=
  d.startLine ≤ line.toNat && line.toNat ≤ d.endLine

/-- A declaration in JSON. -/
def toJson (d : Declaration) : Json :=
  .ofPresent [("startLine", some (.ofNat d.startLine)), ("endLine", some (.ofNat d.endLine)),
    ("kind", some d.kind.toJson), ("label", some (.string d.label)),
    ("statement", d.statement.map .string), ("isProof", some (.bool d.isProof)),
    ("hasBody", some (.bool d.hasBody))]

/-- Reads a declaration from JSON. -/
def ofJson? (v : Json) : Option Declaration := do
  let r ← v.record?
    ["startLine", "endLine", "kind", "label", "statement", "isProof", "hasBody"]
  return {
    startLine := (← r.required "startLine" Json.asUInt32?).toNat
    endLine := (← r.required "endLine" Json.asUInt32?).toNat
    kind := ← r.required "kind" DeclarationKind.ofJson?
    label := ← r.required "label" Json.asString?
    statement := ← r.optional "statement" Json.asString?
    isProof := ← r.required "isProof" Json.asBool?
    hasBody := ← r.required "hasBody" Json.asBool? }

end Declaration

end ProofLedger
