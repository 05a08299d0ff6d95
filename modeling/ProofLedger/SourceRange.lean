import ProofLedger.Json.Record

/-!
# Positions and ranges in a source text

Lines and columns count from one. A range that is built here starts on a real line and does not
end before it starts; one that is read back from a stored tree is taken as it is.
-/

namespace ProofLedger

/-- A line and a column. -/
structure Position where
  line : UInt32
  column : UInt32
  deriving DecidableEq, Repr, Inhabited

namespace Position

/-- Whether a position comes before another: by line, then by column. -/
def before (a b : Position) : Bool :=
  a.line < b.line || (a.line == b.line && a.column < b.column)

/-- A position in JSON. -/
def toJson (p : Position) : Json :=
  .ofFields [("line", .ofNat p.line.toNat), ("column", .ofNat p.column.toNat)]

/-- Reads a position from JSON. -/
def ofJson? (v : Json) : Option Position := do
  let r ← v.record? ["line", "column"]
  return {
    line := ← r.required "line" Json.asUInt32?
    column := ← r.required "column" Json.asUInt32? }

end Position

/-- A stretch of source text. -/
structure SourceRange where
  start : Position
  stop : Position
  deriving DecidableEq, Repr, Inhabited

namespace SourceRange

/-- The range between two positions, unless one is on line zero or the end comes first. -/
def between? (start stop : Position) : Option SourceRange :=
  if start.line == 0 || stop.line == 0 || stop.before start then none
  else some ⟨start, stop⟩

/-- The range of whole lines. -/
def ofLines? (first last : UInt32) : Option SourceRange := between? ⟨first, 1⟩ ⟨last, 1⟩

/-- Whether a range touches a line. -/
def containsLine (r : SourceRange) (line : UInt32) : Bool :=
  r.start.line ≤ line && line ≤ r.stop.line

/-- A range in JSON. -/
def toJson (r : SourceRange) : Json :=
  .ofFields [("start", r.start.toJson), ("end", r.stop.toJson)]

/-- Reads a range from JSON. -/
def ofJson? (v : Json) : Option SourceRange := do
  let r ← v.record? ["start", "end"]
  return {
    start := ← r.required "start" Position.ofJson?
    stop := ← r.required "end" Position.ofJson? }

end SourceRange

end ProofLedger
