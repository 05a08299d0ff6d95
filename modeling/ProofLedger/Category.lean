import ProofLedger.Json.Record
import ProofLedger.Text.Blank
import ProofLedger.Text.Lowercase

/-!
# Failure categories

A failure message falls into one of eight categories. Their order is the order in which they
are tried, and also the order of statistics that are grouped by category.
-/

namespace ProofLedger

/-- What kind of failure a message reports. -/
inductive Category where
  | timeout
  | unknownIdentifier
  | typeMismatch
  | tacticFailed
  | unsolvedGoals
  | kernelError
  | syntaxError
  /-- everything else -/
  | other
  deriving DecidableEq, Repr, Inhabited

namespace Category

/-- The categories in order. -/
def all : List Category :=
  [.timeout, .unknownIdentifier, .typeMismatch, .tacticFailed, .unsolvedGoals, .kernelError,
    .syntaxError, .other]

/-- The place of a category in the order. -/
def rank : Category → Nat
  | .timeout => 0
  | .unknownIdentifier => 1
  | .typeMismatch => 2
  | .tacticFailed => 3
  | .unsolvedGoals => 4
  | .kernelError => 5
  | .syntaxError => 6
  | .other => 7

/-- The name of a category. -/
def name : Category → String
  | .timeout => "timeout"
  | .unknownIdentifier => "unknown_identifier"
  | .typeMismatch => "type_mismatch"
  | .tacticFailed => "tactic_failed"
  | .unsolvedGoals => "unsolved_goals"
  | .kernelError => "kernel_error"
  | .syntaxError => "syntax_error"
  | .other => "other"

/-- The category of a name. -/
def ofName? (s : String) : Option Category := Json.constantNamed name all s

/-- The category a user means: blanks around it and case do not matter, and a dash stands for
    an underscore. -/
def ofText? (s : String) : Option Category :=
  ofName? (String.ofList ((Text.lowercase (Text.trim s)).toList.map fun c =>
    if c = '-' then '_' else c))

/-- A category in JSON. -/
def toJson (c : Category) : Json := .string c.name

/-- Reads a category from JSON. -/
def ofJson? : Json → Option Category := Json.asConstant? ofName?

end Category

end ProofLedger
