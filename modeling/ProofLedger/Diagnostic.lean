import ProofLedger.Decimal.Shortest
import ProofLedger.Severity
import ProofLedger.SourceRange
import ProofLedger.Text.Blank

/-!
# Diagnostics

A compiler message with its place. Editors send diagnostics in two shapes: with a nested range
that counts lines and columns from zero, or flat with numbers that count from one. What does
not conform to either is dropped (`ofPayload?`); stored diagnostics are read strictly
(`ofJson?`).
-/

namespace ProofLedger

/-- The first of two fields that is present, whatever it holds. -/
def Json.firstOf? (v : Json) (name alternative : String) : Option Json :=
  match v.get? name with
  | some w => some w
  | none => v.get? alternative

/-- A message attached to a stretch of a source text. -/
structure Diagnostic where
  message : String
  severity : Severity
  range : SourceRange
  source : Option String := none
  deriving DecidableEq, Repr, Inhabited

namespace Diagnostic

/-- The line on which a diagnostic starts. -/
def line (d : Diagnostic) : UInt32 := d.range.start.line

/-- One more, unless that does not fit. -/
def next? (n : UInt32) : Option UInt32 := if n = 0xFFFFFFFF then none else some (n + 1)

/-- A position that counts from zero. A column that is missing or no number is the first. -/
def nestedPosition? (v : Json) : Option Position := do
  let line ← (← v.get? "line").asUInt32?
  let column := ((v.firstOf? "character" "column").bind Json.asUInt32?).getD 0
  return ⟨← next? line, (next? column).getD column⟩

/-- A nested range; without an end it is a single position. -/
def nestedRange? (v : Json) : Option SourceRange := do
  let start ← v.get? "start"
  let stop := (v.get? "end").getD start
  SourceRange.between? (← nestedPosition? start) (← nestedPosition? stop)

/-- A column that counts from one; column zero means the first. -/
def atLeastOne (n : UInt32) : UInt32 := if n = 0 then 1 else n

/-- A flat range. The end defaults to the start. -/
def flatRange? (v : Json) : Option SourceRange := do
  let line ← (← v.get? "line").asUInt32?
  let endLine := ((v.firstOf? "endLine" "end_line").bind Json.asUInt32?).getD line
  let column := atLeastOne (((v.get? "column").bind Json.asUInt32?).getD 1)
  let endColumn := atLeastOne
    (((v.firstOf? "endColumn" "end_column").bind Json.asUInt32?).getD column)
  SourceRange.between? ⟨line, column⟩ ⟨endLine, endColumn⟩

/-- The severity a payload names or numbers; without one it is an error. -/
def payloadSeverity? (v : Json) : Option Severity :=
  match v.get? "severity" with
  | none => some .error
  | some (.string s) => Severity.ofText? s
  | some n => n.asNat?.bind Severity.ofCode?

/-- What reported the diagnostic: a name or a number. -/
def payloadSource? (v : Json) : Option String :=
  match v.firstOf? "source" "code" with
  | some (.string s) => some s
  | some (.int n) => some (toString n)
  | some (.float x) => some (Decimal.json x)
  | _ => none

/-- Reads a diagnostic from a payload of either shape. -/
def ofPayload? (v : Json) : Option Diagnostic := do
  let message := Text.trim (← (← v.get? "message").asString?)
  if message.isEmpty then none
  else
    let severity ← payloadSeverity? v
    let range ← match v.get? "range" with
      | some r => nestedRange? r
      | none => flatRange? v
    return ⟨message, severity, range, payloadSource? v⟩

/-- The diagnostics of a payload that conform; what is no array holds none. -/
def listOfPayload (v : Option Json) : List Diagnostic :=
  ((v.bind Json.asArray?).getD []).filterMap ofPayload?

/-- A diagnostic in JSON. -/
def toJson (d : Diagnostic) : Json :=
  .ofPresent [("message", some (.string d.message)), ("severity", some d.severity.toJson),
    ("range", some d.range.toJson), ("source", d.source.map .string)]

/-- Reads a stored diagnostic. -/
def ofJson? (v : Json) : Option Diagnostic := do
  let r ← v.record? ["message", "severity", "range", "source"]
  return {
    message := ← r.required "message" Json.asString?
    severity := ← r.required "severity" Severity.ofJson?
    range := ← r.required "range" SourceRange.ofJson?
    source := ← r.optional "source" Json.asString? }

end Diagnostic

end ProofLedger
