import ProofLedger.Derivation.Commit
import ProofLedger.Scheduler.Timeline

/-!
# Workspaces

A workspace is the state tree with the sources of what is derived into it: payloads with the
contexts of files and, where a source of hints is attached, with their goal hints. A run of the
scheduler derives its file from what the workspace holds when the run starts.
-/

namespace ProofLedger

/-- A state tree and what is derived into it. -/
structure Workspace where
  tree : Json := .null
  /-- the payload with the context of each file -/
  contexts : Table Json := .empty
  /-- the payload with the hints of each file, where hints are asked for at all -/
  hints : Option (Table Json) := none
  /-- the time of day -/
  clock : Instant
  /-- the files whose context was asked for, in order -/
  loads : List String := []

namespace Workspace

/-- The state in the tree. -/
def state (w : Workspace) : ProofState := .ofJson w.tree

/-- The tree with patches applied. -/
def commit (w : Workspace) (patches : List Patch) : Workspace :=
  { w with tree := Patch.applyAll patches w.tree }

/-- The context of a file, unless its payload is missing or rejected. -/
def context? (w : Workspace) (fileKey : String) : Option SourceContext :=
  (w.contexts.get? fileKey).bind SourceContext.ofPayload?

/-- The further hints for a file; a payload that is no list has none. -/
def extraHints (w : Workspace) (fileKey : String) : List GoalHint :=
  GoalHint.listOfPayload ((w.hints.getD .empty).get? fileKey)

/-- The patches of a sync of a file now. -/
def syncPatches (w : Workspace) (fileKey : String) : List Patch :=
  Derivation.syncPatches fileKey (w.context? fileKey) (w.extraHints fileKey) w.clock

/-- Syncs a file. -/
def sync (w : Workspace) (fileKey : String) : Workspace :=
  { w.commit (w.syncPatches fileKey) with loads := w.loads ++ [fileKey] }

/-- The worker whose runs sync files. A run takes no time, and there are no tasks. -/
def worker : Worker Workspace where
  run w fileKey _ := { world := w.sync fileKey }
  task w _ := { world := w }

end Workspace

end ProofLedger
