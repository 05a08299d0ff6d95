import ProofLedger.Goal
import ProofLedger.Graph
import ProofLedger.NodeHistory
import ProofLedger.Patch
import ProofLedger.PatternEntry
import ProofLedger.Suggestion

/-!
# The state tree

All knowledge lives in one JSON tree with four sections:

    files        file key → goals, graph, time of the last sync
    history      file key → node id → history
    patterns     pattern key → pattern
    suggestions  slot key → slot

A `ProofState` is a typed view of it. A section that is missing or cannot be read counts as
empty, whatever the others hold.
-/

namespace ProofLedger

/-- What was derived for a file. -/
structure FileState where
  goals : Table Goal := Table.empty
  graph : Option Graph := none
  lastSyncedAt : Option Instant := none
  deriving DecidableEq, Repr, Inhabited

namespace FileState

/-- A file state in JSON. -/
def toJson (f : FileState) : Json :=
  .ofPresent [("goals", some (.ofTable Goal.toJson f.goals)), ("graph", f.graph.map Graph.toJson),
    ("lastSyncedAt", f.lastSyncedAt.map Instant.toJson)]

/-- Reads a file state from JSON. -/
def ofJson? (v : Json) : Option FileState := do
  let r ← v.record? ["goals", "graph", "lastSyncedAt"]
  return {
    goals := ← r.defaulted "goals" Table.empty (Json.asTableOf? Goal.ofJson?)
    graph := ← r.optional "graph" Graph.ofJson?
    lastSyncedAt := ← r.optional "lastSyncedAt" Instant.ofJson? }

end FileState

/-- The typed view of a state tree. -/
structure ProofState where
  files : Table FileState := Table.empty
  history : Table (Table NodeHistory) := Table.empty
  patterns : Table PatternEntry := Table.empty
  suggestions : Table SuggestionSlot := Table.empty
  deriving DecidableEq, Repr, Inhabited

namespace ProofState

/-- A section of a tree, empty if it is missing or cannot be read. -/
def readSection {α : Type} (tree : Json) (name : String) (read : Json → Option α) : Table α :=
  match tree.get? name with
  | none => Table.empty
  | some v => (Json.asTableOf? read v).getD Table.empty

/-- The typed view of a tree. -/
def ofJson (tree : Json) : ProofState where
  files := readSection tree "files" FileState.ofJson?
  history := readSection tree "history" (Json.asTableOf? NodeHistory.ofJson?)
  patterns := readSection tree "patterns" PatternEntry.ofJson?
  suggestions := readSection tree "suggestions" SuggestionSlot.ofJson?

/-- A state as a tree. -/
def toJson (s : ProofState) : Json :=
  .ofFields [("files", .ofTable FileState.toJson s.files),
    ("history", .ofTable (Json.ofTable NodeHistory.toJson) s.history),
    ("patterns", .ofTable PatternEntry.toJson s.patterns),
    ("suggestions", .ofTable SuggestionSlot.toJson s.suggestions)]

/-- The node of an obligation. -/
def node? (s : ProofState) (fileKey nodeId : String) : Option GraphNode := do
  (← (← s.files.get? fileKey).graph).node? nodeId

/-- The goal of an obligation. -/
def goal? (s : ProofState) (fileKey nodeId : String) : Option Goal := do
  let goalId ← (← s.node? fileKey nodeId).goalId
  (← s.files.get? fileKey).goals.get? goalId

/-- The history of an obligation. -/
def nodeHistory? (s : ProofState) (fileKey nodeId : String) : Option NodeHistory := do
  (← s.history.get? fileKey).get? nodeId

/-- The cached suggestions for an obligation. -/
def slot? (s : ProofState) (fileKey nodeId : String) : Option SuggestionSlot :=
  s.suggestions.get? (SuggestionSlot.keyOf fileKey nodeId)

end ProofState

-- ── Places in the tree ────────────────────────────────────────────────────────

namespace StatePath

/-- Where the goals of a file are. -/
def goals (fileKey : String) : Path := ["files", fileKey, "goals"]

/-- Where the graph of a file is. -/
def graph (fileKey : String) : Path := ["files", fileKey, "graph"]

/-- Where the time of the last sync of a file is. -/
def lastSynced (fileKey : String) : Path := ["files", fileKey, "lastSyncedAt"]

/-- Where the history of an obligation is. -/
def nodeHistory (fileKey nodeId : String) : Path := ["history", fileKey, nodeId]

/-- Where a single attempt is. -/
def attempt (fileKey nodeId attemptId : String) : Path :=
  ["history", fileKey, nodeId, "attempts", attemptId]

/-- Where a pattern is. -/
def pattern (key : String) : Path := ["patterns", key]

/-- Where a slot is. -/
def suggestionSlot (slotKey : String) : Path := ["suggestions", slotKey]

end StatePath

end ProofLedger
