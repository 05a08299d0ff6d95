import ProofLedger.ProofState
import ProofLedger.Text.Statement

/-!
# Recording attempts

An attempt is appended to the history of its obligation under the next number, the counters of
the history roll on, and the pattern of its category and tactic counts one more. Input without a
file, node or tactic is ignored.
-/

namespace ProofLedger

namespace Ledger

/-- The number of attempts so far. -/
def attemptsSoFar (h : Option NodeHistory) : UInt64 := (h.map (·.totalAttempts)).getD 0

/-- The record of the next attempt. -/
def nextRecord (h : Option NodeHistory) (a : AttemptInput) (tacticKey : String) (now : Instant) :
    AttemptRecord where
  id := attemptId a.nodeId (attemptsSoFar h + 1).toNat
  fileKey := a.fileKey
  nodeId := a.nodeId
  timestamp := now
  tactic := Text.trim a.tactic
  tacticKey
  result := a.result
  category := a.category
  errorMessage := a.errorMessage
  durationMs := a.durationMs

/-- The streak of failures after one more attempt, up to the largest number there is. -/
def nextStreak (h : Option NodeHistory) (success : Bool) : UInt32 :=
  if success then 0
  else
    let streak := (h.map (·.currentStreak)).getD 0
    if streak = 0xFFFFFFFF then streak else streak + 1

/-- The counters after an attempt. The time of the last success or failure is named only if
    this attempt sets it. -/
def counters (h : Option NodeHistory) (r : AttemptRecord) : Json :=
  let success := r.result.isSuccess
  .ofPresent [("currentStreak", some (.ofNat (nextStreak h success).toNat)),
    ("totalAttempts", some (.ofNat (attemptsSoFar h + 1).toNat)),
    ("lastAttemptAt", some r.timestamp.toJson),
    ("lastSuccessAt", if success then some r.timestamp.toJson else none),
    ("lastFailureAt", if success then none else some r.timestamp.toJson)]

/-- The patches that append a record to the history of its obligation. -/
def patches (h : Option NodeHistory) (r : AttemptRecord) : List Patch :=
  [.set (StatePath.attempt r.fileKey r.nodeId r.id) r.toJson,
    .merge (StatePath.nodeHistory r.fileKey r.nodeId) (counters h r)]

/-- The pattern of an attempt, which is counted in it. A success leaves the signature of the
    goal, if it is known. -/
def observedPattern (s : ProofState) (r : AttemptRecord) (signature : Option String)
    (now : Instant) : PatternEntry :=
  let known := (s.patterns.get? (patternKey r.countedCategory r.tacticKey)).getD
    (PatternEntry.unused r.countedCategory r.tacticKey now)
  let p := known.observe r.result.isSuccess now
  if r.result.isSuccess && signature.isSome then { p with goalSignature := signature } else p

/-- The signature of the goal of an attempt: of the text that was submitted, else of the goal
    that is known. -/
def signatureOf (s : ProofState) (a : AttemptInput) : Option String :=
  match a.goalText with
  | some text => Text.goalSignature text
  | none => (s.goal? a.fileKey a.nodeId).bind fun g => Text.goalSignature g.matchingText

/-- The patch that stores a pattern. -/
def patternPatch (p : PatternEntry) : Patch := .set (StatePath.pattern p.key) p.toJson

/-- The patches that record an attempt. -/
def record (s : ProofState) (a : AttemptInput) (now : Instant) : List Patch :=
  match a.resolvedKey? with
  | none => []
  | some tacticKey =>
    let h := s.nodeHistory? a.fileKey a.nodeId
    let r := nextRecord h a tacticKey now
    patches h r ++ [patternPatch (observedPattern s r (signatureOf s a) now)]

end Ledger

end ProofLedger
