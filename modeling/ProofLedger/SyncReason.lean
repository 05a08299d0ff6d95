import ProofLedger.Json.Record
import ProofLedger.Text.Blank
import ProofLedger.Text.Lowercase

/-!
# Why a file is derived again

Each reason has a delay of its own in the settings of the scheduler.
-/

namespace ProofLedger

/-- What made a new derivation necessary. -/
inductive SyncReason where
  /-- the file was loaded -/
  | startup
  /-- an editor came to the file -/
  | activate
  /-- the file was saved -/
  | save
  /-- the compiler published diagnostics -/
  | diagnostics
  /-- a tactic was applied -/
  | apply
  deriving DecidableEq, Repr, Inhabited

namespace SyncReason

/-- The name of a reason. -/
def name : SyncReason → String
  | .startup => "startup"
  | .activate => "activate"
  | .save => "save"
  | .diagnostics => "diagnostics"
  | .apply => "apply"

/-- The reasons. -/
def all : List SyncReason := [.startup, .activate, .save, .diagnostics, .apply]

/-- The reason a user means: blanks around it and case do not matter. -/
def ofText? (s : String) : Option SyncReason :=
  Json.constantNamed name all (Text.lowercase (Text.trim s))

/-- Reads a reason from JSON. -/
def ofJson? : Json → Option SyncReason := Json.asConstant? (Json.constantNamed name all)

end SyncReason

end ProofLedger
