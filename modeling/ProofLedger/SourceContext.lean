import ProofLedger.Diagnostic

/-!
# What is known about a source file

A source context is the text of a file with the diagnostics and goal hints that an editor has
for it. A payload needs no more than a file key; diagnostics and hints that do not conform are
dropped one by one.
-/

namespace ProofLedger

/-- The goal an editor shows at a line. -/
structure GoalHint where
  line : UInt32
  goalText : String
  deriving DecidableEq, Repr, Inhabited

namespace GoalHint

/-- Reads a hint from a payload. The goal has three spellings, of which the first present one
    counts. -/
def ofPayload? (v : Json) : Option GoalHint := do
  let line ← (← v.get? "line").asUInt32?
  let goal ← match v.firstOf? "goalText" "goal_text" with
    | some g => some g
    | none => v.get? "goal"
  let text := Text.trim (← goal.asString?)
  if line = 0 || text.isEmpty then none else return ⟨line, text⟩

/-- The hints of a payload that conform; what is no array holds none. -/
def listOfPayload (v : Option Json) : List GoalHint :=
  ((v.bind Json.asArray?).getD []).filterMap ofPayload?

/-- A hint in JSON. -/
def toJson (h : GoalHint) : Json :=
  .ofFields [("line", .ofNat h.line.toNat), ("goalText", .string h.goalText)]

/-- Reads a stored hint. -/
def ofJson? (v : Json) : Option GoalHint := do
  let r ← v.record? ["line", "goalText"]
  return {
    line := ← r.required "line" Json.asUInt32?
    goalText := ← r.required "goalText" Json.asString? }

end GoalHint

/-- A source file with what its editor knows about it. -/
structure SourceContext where
  fileKey : String
  sourceText : String
  diagnostics : List Diagnostic := []
  goalHints : List GoalHint := []
  deriving DecidableEq, Repr, Inhabited

namespace SourceContext

/-- Reads a context from a payload; one without a file key is rejected. -/
def ofPayload? (v : Json) : Option SourceContext := do
  let fileKey := Text.trim (← (← v.firstOf? "fileKey" "file_key").asString?)
  if fileKey.isEmpty then none
  else return {
    fileKey
    sourceText := ((v.firstOf? "sourceText" "source_text").bind Json.asString?).getD ""
    diagnostics := Diagnostic.listOfPayload (v.get? "diagnostics")
    goalHints := GoalHint.listOfPayload (v.firstOf? "goalHints" "goal_hints") }

/-- A context in JSON. -/
def toJson (c : SourceContext) : Json :=
  .ofFields [("fileKey", .string c.fileKey), ("sourceText", .string c.sourceText),
    ("diagnostics", .ofList Diagnostic.toJson c.diagnostics),
    ("goalHints", .ofList GoalHint.toJson c.goalHints)]

/-- Reads a stored context. -/
def ofJson? (v : Json) : Option SourceContext := do
  let r ← v.record? ["fileKey", "sourceText", "diagnostics", "goalHints"]
  return {
    fileKey := ← r.required "fileKey" Json.asString?
    sourceText := ← r.required "sourceText" Json.asString?
    diagnostics := ← r.defaulted "diagnostics" [] (Json.asListOf? Diagnostic.ofJson?)
    goalHints := ← r.defaulted "goalHints" [] (Json.asListOf? GoalHint.ofJson?) }

end SourceContext

end ProofLedger
