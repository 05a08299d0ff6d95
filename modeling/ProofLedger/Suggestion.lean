import ProofLedger.Category
import ProofLedger.Instant

/-!
# Suggestions

A suggestion is a tactic with its blended score; the suggestions for an obligation are cached in
a slot under the file and the node.
-/

namespace ProofLedger

/-- A tactic suggested for an obligation. -/
structure SuggestionEntry where
  nodeId : String
  tacticKey : String
  score : Float
  sampleSize : UInt64
  successRate : Float
  sourceCategory : Option Category := none
  generatedAt : Instant
  deriving DecidableEq, Repr, Inhabited

namespace SuggestionEntry

/-- A suggestion in JSON. -/
def toJson (s : SuggestionEntry) : Json :=
  .ofPresent [("nodeId", some (.string s.nodeId)), ("tacticKey", some (.string s.tacticKey)),
    ("score", some (.ofFloat s.score)), ("sampleSize", some (.ofNat s.sampleSize.toNat)),
    ("successRate", some (.ofFloat s.successRate)),
    ("sourceCategory", s.sourceCategory.map Category.toJson),
    ("generatedAt", some s.generatedAt.toJson)]

/-- Reads a suggestion from JSON. -/
def ofJson? (v : Json) : Option SuggestionEntry := do
  let r ← v.record? ["nodeId", "tacticKey", "score", "sampleSize", "successRate",
    "sourceCategory", "generatedAt"]
  return {
    nodeId := ← r.required "nodeId" Json.asString?
    tacticKey := ← r.required "tacticKey" Json.asString?
    score := ← r.required "score" Json.asFloat?
    sampleSize := ← r.required "sampleSize" Json.asUInt64?
    successRate := ← r.required "successRate" Json.asFloat?
    sourceCategory := ← r.optional "sourceCategory" Category.ofJson?
    generatedAt := ← r.required "generatedAt" Instant.ofJson? }

end SuggestionEntry

/-- The cached suggestions for an obligation. -/
structure SuggestionSlot where
  fileKey : String
  nodeId : String
  entries : List SuggestionEntry
  generatedAt : Instant
  deriving DecidableEq, Repr, Inhabited

namespace SuggestionSlot

/-- The key of the slot of an obligation. -/
def keyOf (fileKey nodeId : String) : String := fileKey ++ "#" ++ nodeId

/-- A slot in JSON. -/
def toJson (s : SuggestionSlot) : Json :=
  .ofFields [("fileKey", .string s.fileKey), ("nodeId", .string s.nodeId),
    ("entries", .ofList SuggestionEntry.toJson s.entries),
    ("generatedAt", s.generatedAt.toJson)]

/-- Reads a slot from JSON. -/
def ofJson? (v : Json) : Option SuggestionSlot := do
  let r ← v.record? ["fileKey", "nodeId", "entries", "generatedAt"]
  return {
    fileKey := ← r.required "fileKey" Json.asString?
    nodeId := ← r.required "nodeId" Json.asString?
    entries := ← r.required "entries" (Json.asListOf? SuggestionEntry.ofJson?)
    generatedAt := ← r.required "generatedAt" Instant.ofJson? }

end SuggestionSlot

end ProofLedger
