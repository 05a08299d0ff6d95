import ProofLedger.Json.Record
import ProofLedger.Text.Lowercase

/-!
# Severities of diagnostics

A severity has a name, spellings in which editors send it, and a number from one to four.
-/

namespace ProofLedger

/-- How serious a diagnostic is. -/
inductive Severity where
  | error
  | warning
  | info
  | hint
  deriving DecidableEq, Repr, Inhabited

namespace Severity

/-- The name of a severity. -/
def name : Severity → String
  | .error => "error"
  | .warning => "warning"
  | .info => "info"
  | .hint => "hint"

/-- The severity of a name, without regard to case; two names have a second spelling. -/
def ofText? (s : String) : Option Severity :=
  match Text.lowercase s with
  | "error" => some .error
  | "warning" | "warn" => some .warning
  | "info" | "information" => some .info
  | "hint" => some .hint
  | _ => none

/-- The severity of a number. -/
def ofCode? : Nat → Option Severity
  | 1 => some .error
  | 2 => some .warning
  | 3 => some .info
  | 4 => some .hint
  | _ => none

/-- Whether a diagnostic of this severity is a failure. -/
def isError (s : Severity) : Bool := s == .error

/-- A severity in JSON. -/
def toJson (s : Severity) : Json := .string s.name

/-- Reads a severity from JSON. -/
def ofJson? : Json → Option Severity :=
  Json.asConstant? (Json.constantNamed name [.error, .warning, .info, .hint])

end Severity

end ProofLedger
