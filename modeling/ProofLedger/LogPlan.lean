import ProofLedger.Settings

/-!
# How the log is written

The plan for the log that follows from its settings. A format that is not known is the one for
people.
-/

namespace ProofLedger

/-- How a line of the log looks. -/
inductive LogFormat where
  | json
  | pretty
  deriving DecidableEq, Repr, Inhabited

namespace LogFormat

/-- The name of a format. -/
def name : LogFormat → String
  | .json => "json"
  | .pretty => "pretty"

/-- The format that a name means, without regard to case. -/
def ofText? (s : String) : Option LogFormat :=
  Json.constantNamed name [.json, .pretty] (Text.lowercase s)

end LogFormat

/-- When a new log file is begun. -/
inductive LogRotation where
  | daily
  | hourly
  | never
  deriving DecidableEq, Repr, Inhabited

/-- The name of a rotation. -/
def LogRotation.name : LogRotation → String
  | .daily => "daily"
  | .hourly => "hourly"
  | .never => "never"

/-- How the log is written. -/
structure LogPlan where
  level : String
  format : LogFormat
  /-- where log files go, if any are written -/
  directory : Option String
  onConsole : Bool := true
  rotation : LogRotation := .daily
  deriving DecidableEq, Repr

namespace LogPlan

/-- The plan that follows from settings. -/
def ofSettings (s : LogSettings) : LogPlan where
  level := s.level
  format := (LogFormat.ofText? s.format).getD .pretty
  directory := s.directory

/-- A plan in JSON. -/
def toJson (p : LogPlan) : Json :=
  .ofFields [("level", .string p.level), ("format", .string p.format.name),
    ("log_dir", (p.directory.map Json.string).getD .null), ("enable_console", .bool p.onConsole),
    ("rotation", .string p.rotation.name)]

end LogPlan

end ProofLedger
