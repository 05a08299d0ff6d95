import ProofLedger.SourceContext

/-!
# Sidecar files

A source file may be accompanied by files with its diagnostics and its goal hints, each either a
bare array or an object that holds the array under a key.
-/

namespace ProofLedger

/-- What a sidecar holds under a key. -/
def Json.sidecarList? (v : Json) (key : String) : Option Json :=
  match v with
  | .array _ => some v
  | .object fields => Keyed.find? key fields
  | _ => none

end ProofLedger
