import ProofLedger.Category.Classify
import ProofLedger.Declaration.Block
import ProofLedger.Goal
import ProofLedger.Graph
import ProofLedger.Identity
import ProofLedger.Instant
import ProofLedger.SourceContext
import ProofLedger.Text.Statement
import ProofLedger.Text.Truncate

/-!
# Deriving obligations

From a source text and its diagnostics a derivation makes, from scratch each time, a goal and a
node for every declaration, and for every error outside of all declarations. Derivations do not
fail: a blank text has nothing but the root.
-/

namespace ProofLedger

/-- What one pass over a file yields. -/
structure Derivation where
  goals : Table Goal
  graph : Graph
  declarations : List Declaration
  derivedAt : Instant
  deriving DecidableEq, Repr

namespace Derivation

/-- Diagnostics by their start, those that start together in the given order. -/
def sortDiagnostics (ds : List Diagnostic) : List Diagnostic :=
  ds.mergeSort fun a b => !b.range.start.before a.range.start

/-- The goal status that goes with a node status. -/
def goalStatus : NodeStatus → GoalStatus
  | .error => .failed
  | .placeholder => .pending
  | .inProgress => .pending
  | .resolved => .resolved

/-- The last hint on the highest line of those that lie in a declaration. -/
def hintFor (d : Declaration) (hints : List GoalHint) : Option GoalHint :=
  hints.foldl (fun best h =>
    if d.containsLine h.line then
      match best with
      | some b => if h.line < b.line then some b else some h
      | none => some h
    else best) none

/-- The identity of a declaration. -/
def declarationIdentity (d : Declaration) : Identity :=
  .declaration d.startLine (d.statement.getD (d.kind.name ++ " " ++ d.label))

/-- The first of the errors, which are in order, that lies in a declaration. -/
def errorIn? (d : Declaration) (errors : List Diagnostic) : Option Diagnostic :=
  errors.find? fun e => d.containsLine e.line

/-- The status of a block with its first error. -/
def blockStatus (b : Block) (error : Option Diagnostic) : NodeStatus :=
  if error.isSome then .error
  else if b.hasPlaceholder then .placeholder
  else if !b.declaration.hasBody then .inProgress
  else .resolved

/-- The goal of a block, if it has to be proved. -/
def blockGoal (b : Block) (errors : List Diagnostic) (hints : List GoalHint) : Option Goal :=
  let d := b.declaration
  if d.isProof then
    some {
      id := (declarationIdentity d).goalId
      statement := d.statement.getD ""
      status := goalStatus (blockStatus b (errorIn? d errors))
      goalText := (hintFor d hints).map (·.goalText) }
  else none

/-- The node of a block. -/
def blockNode (b : Block) (errors : List Diagnostic) : GraphNode :=
  let d := b.declaration
  let error := errorIn? d errors
  { nodeId := (declarationIdentity d).nodeId
    label := d.label
    kind := NodeKind.ofDeclaration d.kind
    range := SourceRange.ofLines? d.startLine.toUInt32 d.endLine.toUInt32
    status := blockStatus b error
    errorMessage := error.map (·.message)
    errorCategory := error.map fun e => Category.classify e.message
    goalId := if d.isProof then some (declarationIdentity d).goalId else none }

/-- The identity of an error outside of all declarations. -/
def diagnosticIdentity (e : Diagnostic) : Identity :=
  .diagnostic e.line.toNat (Text.normalizeStatement e.message)

/-- The longest label made from a message. -/
def labelLimit : Nat := 60

/-- The first line of a message, cut to the longest label. -/
def diagnosticLabel (message : String) : String :=
  Text.truncate labelLimit
    (String.ofList (Text.collapse ((Text.lines message.toList).head?.getD [])))

/-- The goal of an error outside of all declarations. -/
def diagnosticGoal (e : Diagnostic) : Goal where
  id := (diagnosticIdentity e).goalId
  statement := Text.normalizeStatement e.message
  status := .failed

/-- The node of an error outside of all declarations. -/
def diagnosticNode (e : Diagnostic) : GraphNode where
  nodeId := (diagnosticIdentity e).nodeId
  label := diagnosticLabel e.message
  kind := .diagnostic
  range := some e.range
  status := .error
  errorMessage := some e.message
  errorCategory := some (Category.classify e.message)
  goalId := some (diagnosticIdentity e).goalId

/-- Whether some block contains a line. -/
def isCovered (blocks : List Block) (line : UInt32) : Bool :=
  blocks.any fun b => b.declaration.containsLine line

/-- The blocks of a source text. -/
def blocksOf (sourceText : String) : List Block :=
  Block.scan (Text.stripComments sourceText.toList)

/-- The errors among the sorted diagnostics of a context. -/
def errorsOf (c : SourceContext) : List Diagnostic :=
  (sortDiagnostics c.diagnostics).filter fun d => d.severity.isError

/-- The nodes of a context with their goals: blocks first, then the errors outside of them. -/
def obligations (c : SourceContext) : List (Option Goal × GraphNode) :=
  let blocks := blocksOf c.sourceText
  let errors := errorsOf c
  blocks.map (fun b => (blockGoal b errors c.goalHints, blockNode b errors)) ++
    (errors.filter fun e => !isCovered blocks e.line).map fun e =>
      (some (diagnosticGoal e), diagnosticNode e)

/-- The goals of some obligations, the last of equal ids kept. -/
def collectGoals (os : List (Option Goal × GraphNode)) : Table Goal :=
  Table.ofList (os.filterMap fun o => o.1.map fun g => (g.id, g))

/-- The graph of some obligations. -/
def buildGraph (fileKey : String) (os : List (Option Goal × GraphNode)) : Graph :=
  (os.foldl (fun g o => g.attachToRoot o.2) (Graph.rootOnly fileKey)).refreshRootStatus

/-- Derives the obligations of a context. -/
def derive (c : SourceContext) (now : Instant) : Derivation :=
  if Text.isBlankText c.sourceText then
    { goals := Table.empty, graph := Graph.rootOnly c.fileKey, declarations := [],
      derivedAt := now }
  else
    let os := obligations c
    { goals := collectGoals os
      graph := buildGraph c.fileKey os
      declarations := (blocksOf c.sourceText).map (·.declaration)
      derivedAt := now }

/-- A derivation in JSON. -/
def toJson (d : Derivation) : Json :=
  .ofFields [("goals", .ofTable Goal.toJson d.goals), ("graph", d.graph.toJson),
    ("declarations", .ofList Declaration.toJson d.declarations),
    ("derivedAt", d.derivedAt.toJson)]

end Derivation

end ProofLedger
