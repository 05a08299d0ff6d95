import ProofLedger.Category
import ProofLedger.Instant
import ProofLedger.Text.Statement

/-!
# Tactic attempts

An attempt applies a tactic to an obligation and ends with a result. Attempts of one tactic are
grouped by its key, the first word of its text in small letters. A caller submits an
`AttemptInput`; the ledger keeps `AttemptRecord`s, numbered within their obligation.
-/

namespace ProofLedger

/-- How an attempt ended. -/
inductive AttemptResult where
  | success
  | error
  | timeout
  /-- the goal was closed by a placeholder -/
  | placeholder
  deriving DecidableEq, Repr, Inhabited

namespace AttemptResult

/-- The name of a result. -/
def name : AttemptResult → String
  | .success => "success"
  | .error => "error"
  | .timeout => "timeout"
  | .placeholder => "placeholder"

/-- The result a user means: blanks around it and case do not matter, and most results have a
    second spelling. -/
def ofText? (s : String) : Option AttemptResult :=
  match Text.lowercase (Text.trim s) with
  | "success" | "ok" => some .success
  | "error" | "failure" | "failed" => some .error
  | "timeout" => some .timeout
  | "placeholder" | "sorry" => some .placeholder
  | _ => none

/-- Whether the goal was proved. -/
def isSuccess (r : AttemptResult) : Bool := r == .success

/-- A result in JSON. -/
def toJson (r : AttemptResult) : Json := .string r.name

/-- Reads a result from JSON. -/
def ofJson? : Json → Option AttemptResult :=
  Json.asConstant? (Json.constantNamed name [.success, .error, .timeout, .placeholder])

end AttemptResult

/-- Whether a character ends the head of a tactic. -/
def endsTacticHead (c : Char) : Bool :=
  Text.isBlank c || c == '[' || c == '(' || c == ';' || c == '<'

/-- The key of a tactic: its first word in small letters, without punctuation at its end. -/
def tacticKey? (tactic : String) : Option String :=
  match Text.runs endsTacticHead tactic.toList with
  | [] => none
  | head :: _ =>
    match Text.lowerChars (Text.dropEnd (fun c => c == ',' || c == '.') head) with
    | [] => none
    | c :: r => some (String.ofList (c :: r))

/-- The id of an attempt: its node and its number with at least six digits. -/
def attemptId (nodeId : String) (sequence : Nat) : String :=
  nodeId ++ "#" ++ String.ofList (Instant.padded 6 sequence)

/-- An attempt as a caller submits it. -/
structure AttemptInput where
  fileKey : String := ""
  nodeId : String := ""
  tactic : String := ""
  tacticKey : Option String := none
  result : AttemptResult
  category : Option Category := none
  errorMessage : Option String := none
  durationMs : Option UInt64 := none
  /-- the goal at the time of the attempt -/
  goalText : Option String := none
  deriving DecidableEq, Repr, Inhabited

namespace AttemptInput

/-- The key under which an attempt is counted: the given one, or that of the tactic. Without
    file, node or tactic there is none. -/
def resolvedKey? (a : AttemptInput) : Option String :=
  if Text.isBlankText a.fileKey || Text.isBlankText a.nodeId || Text.isBlankText a.tactic then
    none
  else
    match a.tacticKey.map Text.trim with
    | some key => if key.isEmpty then tacticKey? a.tactic else some (Text.lowercase key)
    | none => tacticKey? a.tactic

/-- An input in JSON. -/
def toJson (a : AttemptInput) : Json :=
  .ofPresent [("fileKey", some (.string a.fileKey)), ("nodeId", some (.string a.nodeId)),
    ("tactic", some (.string a.tactic)), ("tacticKey", a.tacticKey.map .string),
    ("result", some a.result.toJson), ("contextErrorCategory", a.category.map Category.toJson),
    ("errorMessage", a.errorMessage.map .string),
    ("durationMs", a.durationMs.map fun n => .ofNat n.toNat),
    ("goalText", a.goalText.map .string)]

/-- Reads an input from JSON. -/
def ofJson? (v : Json) : Option AttemptInput := do
  let r ← v.record? ["fileKey", "nodeId", "tactic", "tacticKey", "result",
    "contextErrorCategory", "errorMessage", "durationMs", "goalText"]
  return {
    fileKey := ← r.defaulted "fileKey" "" Json.asString?
    nodeId := ← r.defaulted "nodeId" "" Json.asString?
    tactic := ← r.defaulted "tactic" "" Json.asString?
    tacticKey := ← r.optional "tacticKey" Json.asString?
    result := ← r.required "result" AttemptResult.ofJson?
    category := ← r.optional "contextErrorCategory" Category.ofJson?
    errorMessage := ← r.optional "errorMessage" Json.asString?
    durationMs := ← r.optional "durationMs" Json.asUInt64?
    goalText := ← r.optional "goalText" Json.asString? }

end AttemptInput

/-- An attempt as the ledger keeps it. -/
structure AttemptRecord where
  id : String
  fileKey : String
  nodeId : String
  timestamp : Instant
  tactic : String
  tacticKey : String
  result : AttemptResult
  category : Option Category := none
  errorMessage : Option String := none
  durationMs : Option UInt64 := none
  deriving DecidableEq, Repr, Inhabited

namespace AttemptRecord

/-- The category under which an attempt is counted. -/
def countedCategory (a : AttemptRecord) : Category := a.category.getD .other

/-- A record in JSON. -/
def toJson (a : AttemptRecord) : Json :=
  .ofPresent [("id", some (.string a.id)), ("fileKey", some (.string a.fileKey)),
    ("nodeId", some (.string a.nodeId)), ("timestamp", some a.timestamp.toJson),
    ("tactic", some (.string a.tactic)), ("tacticKey", some (.string a.tacticKey)),
    ("result", some a.result.toJson), ("contextErrorCategory", a.category.map Category.toJson),
    ("errorMessage", a.errorMessage.map .string),
    ("durationMs", a.durationMs.map fun n => .ofNat n.toNat)]

/-- Reads a record from JSON. -/
def ofJson? (v : Json) : Option AttemptRecord := do
  let r ← v.record? ["id", "fileKey", "nodeId", "timestamp", "tactic", "tacticKey", "result",
    "contextErrorCategory", "errorMessage", "durationMs"]
  return {
    id := ← r.required "id" Json.asString?
    fileKey := ← r.required "fileKey" Json.asString?
    nodeId := ← r.required "nodeId" Json.asString?
    timestamp := ← r.required "timestamp" Instant.ofJson?
    tactic := ← r.required "tactic" Json.asString?
    tacticKey := ← r.required "tacticKey" Json.asString?
    result := ← r.required "result" AttemptResult.ofJson?
    category := ← r.optional "contextErrorCategory" Category.ofJson?
    errorMessage := ← r.optional "errorMessage" Json.asString?
    durationMs := ← r.optional "durationMs" Json.asUInt64? }

end AttemptRecord

end ProofLedger
