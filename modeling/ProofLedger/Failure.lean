/-!
# Failures at the boundary

The engines never fail; what can fail is what they are connected to: loading a context, loading
hints, running a tactic, and the store.
-/

namespace ProofLedger

/-- A failed call across the boundary. -/
inductive Failure where
  | contextUnavailable (fileKey reason : String)
  | hintsUnavailable (fileKey : String)
  | executionFailed (reason : String)
  | storeFailed (reason : String)
  | invalid (reason : String)
  deriving DecidableEq, Repr

/-- The text of a failure. -/
def Failure.message : Failure → String
  | .contextUnavailable fileKey reason => "Context unavailable for " ++ fileKey ++ ": " ++ reason
  | .hintsUnavailable fileKey => "Goal hints unavailable for " ++ fileKey
  | .executionFailed reason => "Tactic execution failed: " ++ reason
  | .storeFailed reason => "State store error: " ++ reason
  | .invalid reason => "Validation failed: " ++ reason

end ProofLedger
