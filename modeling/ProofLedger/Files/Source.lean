import ProofLedger.Files.Access
import ProofLedger.Failure
import ProofLedger.Json.Reader
import ProofLedger.SourceContext.Sidecar

/-!
# Source files

A source file is read with the two files beside it: its diagnostics, and the goals at its lines.
A file beside it that is missing or no JSON counts as absent.
-/

namespace ProofLedger.SourceFile

/-- The path of the file with the diagnostics of a source file. -/
def diagnosticsPath (directory fileKey : String) : String :=
  FilePath.below directory (fileKey ++ ".diagnostics.json")

/-- The path of the file with the goals of a source file. -/
def goalsPath (directory fileKey : String) : String :=
  FilePath.below directory (fileKey ++ ".goals.json")

variable {m : Type → Type} [Monad m]

/-- The JSON value in a file. -/
def readSidecar? (files : FileAccess m) (path : String) : m (Option Json) := do
  match ← files.readText path with
  | .ok text => return Json.parse? text
  | .error _ => return none

/-- The context of a source file, with its diagnostics but without goals. -/
def loadContext (files : FileAccess m) (directory fileKey : String) :
    ExceptT Failure m SourceContext := do
  if Text.isBlankText fileKey then throw (.invalid "empty file key")
  match ← files.readText (FilePath.below directory fileKey) with
  | .error f => throw (.contextUnavailable fileKey f.message)
  | .ok sourceText =>
    let sidecar ← liftM (readSidecar? files (diagnosticsPath directory fileKey))
    return {
      fileKey
      sourceText
      diagnostics := Diagnostic.listOfPayload (sidecar.bind fun v => v.sidecarList? "diagnostics") }

/-- The goals at the lines of a source file. -/
def loadHints (files : FileAccess m) (directory fileKey : String) :
    ExceptT Failure m (List GoalHint) := do
  match ← liftM (readSidecar? files (goalsPath directory fileKey)) with
  | none => throw (.hintsUnavailable fileKey)
  | some v => return GoalHint.listOfPayload (v.sidecarList? "goalHints")

end ProofLedger.SourceFile
