import ProofLedger.Json.Record
import ProofLedger.Text.Lowercase

/-!
# Goals

A goal is a statement to be proved, with an id that stays the same as long as the line and the
normal form of the statement do.
-/

namespace ProofLedger

/-- How far a goal is. -/
inductive GoalStatus where
  /-- still has a placeholder or no body -/
  | pending
  /-- proved -/
  | resolved
  /-- has an error -/
  | failed
  deriving DecidableEq, Repr, Inhabited

namespace GoalStatus

/-- The name of a status. -/
def name : GoalStatus → String
  | .pending => "open"
  | .resolved => "resolved"
  | .failed => "failed"

/-- The statuses. -/
def all : List GoalStatus := [.pending, .resolved, .failed]

/-- The status of a name, without regard to case. -/
def ofText? (s : String) : Option GoalStatus := Json.constantNamed name all (Text.lowercase s)

/-- A status in JSON. -/
def toJson (s : GoalStatus) : Json := .string s.name

/-- Reads a status from JSON. -/
def ofJson? : Json → Option GoalStatus := Json.asConstant? (Json.constantNamed name all)

end GoalStatus

/-- A statement to be proved. -/
structure Goal where
  id : String
  statement : String
  status : GoalStatus
  /-- the goal as an editor shows it -/
  goalText : Option String := none
  deriving DecidableEq, Repr, Inhabited

namespace Goal

/-- The text by which a goal is recognised: what the editor shows, else the statement. -/
def matchingText (g : Goal) : String := g.goalText.getD g.statement

/-- A goal in JSON. -/
def toJson (g : Goal) : Json :=
  .ofPresent [("id", some (.string g.id)), ("statement", some (.string g.statement)),
    ("status", some g.status.toJson), ("goalText", g.goalText.map .string)]

/-- Reads a goal from JSON. -/
def ofJson? (v : Json) : Option Goal := do
  let r ← v.record? ["id", "statement", "status", "goalText"]
  return {
    id := ← r.required "id" Json.asString?
    statement := ← r.required "statement" Json.asString?
    status := ← r.required "status" GoalStatus.ofJson?
    goalText := ← r.optional "goalText" Json.asString? }

end Goal

end ProofLedger
