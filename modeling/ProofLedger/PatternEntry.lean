import ProofLedger.Attempt
import ProofLedger.Table

/-!
# Patterns

A pattern counts, over all files, how often a tactic succeeded on failures of one category.
-/

namespace ProofLedger

/-- The share of successes, or zero without data. -/
def successRate (successes total : UInt64) : Float :=
  if total = 0 then 0 else successes.toFloat / total.toFloat

/-- The key of the pattern of a category and a tactic key. -/
def patternKey (category : Category) (tacticKey : String) : String :=
  category.name ++ ":" ++ tacticKey

/-- Statistics of a tactic on failures of a category. -/
structure PatternEntry where
  key : String
  category : Category
  tacticKey : String
  successCount : UInt64
  failureCount : UInt64
  score : Float
  lastUpdated : Instant
  /-- the signature of the goal that was closed last -/
  goalSignature : Option String := none
  deriving DecidableEq, Repr, Inhabited

namespace PatternEntry

/-- The pattern before its first attempt. -/
def unused (category : Category) (tacticKey : String) (now : Instant) : PatternEntry where
  key := patternKey category tacticKey
  category
  tacticKey
  successCount := 0
  failureCount := 0
  score := 0
  lastUpdated := now

/-- The number of attempts counted. -/
def sampleSize (p : PatternEntry) : UInt64 := p.successCount + p.failureCount

/-- Counts one more attempt. -/
def observe (p : PatternEntry) (success : Bool) (now : Instant) : PatternEntry :=
  let successCount := if success then p.successCount + 1 else p.successCount
  let failureCount := if success then p.failureCount else p.failureCount + 1
  { p with
    successCount, failureCount
    score := successRate successCount (successCount + failureCount)
    lastUpdated := now }

/-- A pattern in JSON. -/
def toJson (p : PatternEntry) : Json :=
  .ofPresent [("key", some (.string p.key)), ("category", some p.category.toJson),
    ("tacticKey", some (.string p.tacticKey)), ("successCount", some (.ofNat p.successCount.toNat)),
    ("failureCount", some (.ofNat p.failureCount.toNat)), ("score", some (.ofFloat p.score)),
    ("lastUpdated", some p.lastUpdated.toJson), ("goalSignature", p.goalSignature.map .string)]

/-- Reads a pattern from JSON. -/
def ofJson? (v : Json) : Option PatternEntry := do
  let r ← v.record? ["key", "category", "tacticKey", "successCount", "failureCount", "score",
    "lastUpdated", "goalSignature"]
  return {
    key := ← r.required "key" Json.asString?
    category := ← r.required "category" Category.ofJson?
    tacticKey := ← r.required "tacticKey" Json.asString?
    successCount := ← r.required "successCount" Json.asUInt64?
    failureCount := ← r.required "failureCount" Json.asUInt64?
    score := ← r.required "score" Json.asFloat?
    lastUpdated := ← r.required "lastUpdated" Instant.ofJson?
    goalSignature := ← r.optional "goalSignature" Json.asString? }

end PatternEntry

end ProofLedger
