import ProofLedger.Derivation
import ProofLedger.ProofState

/-!
# Committing derivations

A derivation replaces goals and graph of its file, provided that its graph is consistent. In any
case the time of the sync is noted, also if nothing could be derived.
-/

namespace ProofLedger.Derivation

/-- The patches that only note the time of a sync. -/
def lastSyncedPatches (fileKey : String) (now : Instant) : List Patch :=
  [.set (StatePath.lastSynced fileKey) now.toJson]

/-- The patches that commit a derivation. -/
def patches (fileKey : String) (d : Derivation) : List Patch :=
  if d.graph.isConsistent then
    [.set (StatePath.goals fileKey) (.ofTable Goal.toJson d.goals),
      .set (StatePath.graph fileKey) d.graph.toJson] ++ lastSyncedPatches fileKey d.derivedAt
  else lastSyncedPatches fileKey d.derivedAt

/-- The patches of a sync. A file without a context keeps what was derived before; with one, it
    is derived from the context under its own key, with further hints appended. -/
def syncPatches (fileKey : String) (context : Option SourceContext) (hints : List GoalHint)
    (now : Instant) : List Patch :=
  match context with
  | some c => patches fileKey (derive { c with fileKey, goalHints := c.goalHints ++ hints } now)
  | none => lastSyncedPatches fileKey now

end ProofLedger.Derivation
