import ProofLedger.Attempt

/-!
# Outcomes of tactics

An executor says whether it applied a tactic, and may say more. Before an outcome is recorded
its gaps are filled: the result follows from whether the tactic was applied, and everything but
a success has a message.
-/

namespace ProofLedger

/-- What an executor is asked to do. -/
structure TacticRequest where
  fileKey : String
  nodeId : String
  tactic : String
  tacticKey : String
  deriving DecidableEq, Repr, Inhabited

/-- A request in JSON. -/
def TacticRequest.toJson (r : TacticRequest) : Json :=
  .ofFields [("fileKey", .string r.fileKey), ("nodeId", .string r.nodeId),
    ("tactic", .string r.tactic), ("tacticKey", .string r.tacticKey)]

/-- What an executor answers. -/
structure TacticOutcome where
  applied : Bool
  result : Option AttemptResult := none
  errorMessage : Option String := none
  durationMs : Option UInt64 := none
  deriving DecidableEq, Repr, Inhabited

namespace TacticOutcome

/-- An outcome in JSON. -/
def toJson (o : TacticOutcome) : Json :=
  .ofPresent [("applied", some (.bool o.applied)), ("result", o.result.map AttemptResult.toJson),
    ("errorMessage", o.errorMessage.map .string),
    ("durationMs", o.durationMs.map fun n => .ofNat n.toNat)]

/-- Reads an outcome from JSON. -/
def ofJson? (v : Json) : Option TacticOutcome := do
  let r ← v.record? ["applied", "result", "errorMessage", "durationMs"]
  return {
    applied := ← r.required "applied" Json.asBool?
    result := ← r.optional "result" AttemptResult.ofJson?
    errorMessage := ← r.optional "errorMessage" Json.asString?
    durationMs := ← r.optional "durationMs" Json.asUInt64? }

end TacticOutcome

/-- An outcome without gaps. -/
structure SettledOutcome where
  applied : Bool
  result : AttemptResult
  errorMessage : Option String
  durationMs : Option UInt64
  deriving DecidableEq, Repr, Inhabited

namespace SettledOutcome

/-- The message of a failure for which the executor gave none. -/
def defaultMessage (result : AttemptResult) (applied : Bool) : String :=
  match result with
  | .timeout => "tactic timed out"
  | .placeholder => "tactic left a placeholder"
  | _ => if applied then "tactic failed" else "tactic was not applied"

/-- Fills the gaps of an outcome. -/
def ofOutcome (o : TacticOutcome) : SettledOutcome :=
  let result := o.result.getD (if o.applied then .success else .error)
  let given : Option String :=
    match o.errorMessage.map Text.trim with
    | some m => if m.isEmpty then none else some m
    | none => none
  { applied := o.applied
    result
    errorMessage :=
      if result.isSuccess then given else some (given.getD (defaultMessage result o.applied))
    durationMs := o.durationMs }

/-- A settled outcome in JSON. -/
def toJson (o : SettledOutcome) : Json :=
  .ofFields [("applied", .bool o.applied), ("result", o.result.toJson),
    ("errorMessage", (o.errorMessage.map Json.string).getD .null),
    ("durationMs", (o.durationMs.map fun n => Json.ofNat n.toNat).getD .null)]

end SettledOutcome

end ProofLedger
