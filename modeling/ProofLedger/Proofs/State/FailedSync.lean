import ProofLedger.Workspace
import ProofLedger.Proofs.Graph.Consistency
import ProofLedger.Proofs.Json.Frame
import ProofLedger.Proofs.State.Commit

/-!
# Syncs that fail

A sync fails if there is no context of its file, or if the graph that was derived is not
consistent. What was derived before is kept then, whatever the tree looks like: the time of the
sync is noted, and nothing else in the tree changes.
-/

namespace ProofLedger

/-- A graph is refused exactly if it is not consistent. -/
theorem Graph.validated?_eq_none_iff {g : Graph} : g.validated? = none ↔ ¬ g.Consistent := by
  rw [← Graph.isConsistent_iff]
  unfold Graph.validated?
  split <;> simp_all

/-- The patches of a sync that fails, with the time that it notes. -/
inductive FailedSync (fileKey : String) : Instant → List Patch → Prop where
  /-- the payload with the context is missing, or it is rejected -/
  | noContext {w : Workspace} (h : w.context? fileKey = none) :
    FailedSync fileKey w.clock (w.syncPatches fileKey)
  /-- the graph of the derivation is refused -/
  | noGraph {d : Derivation} (h : d.graph.validated? = none) :
    FailedSync fileKey d.derivedAt (Derivation.patches fileKey d)

variable {fileKey : String} {now : Instant} {patches : List Patch}

/-- Both ways to fail commit the same. -/
theorem FailedSync.patches_eq (h : FailedSync fileKey now patches) :
    patches = Derivation.lastSyncedPatches fileKey now := by
  cases h with
  | @noContext w h =>
    show Derivation.syncPatches fileKey (w.context? fileKey) _ _ = _
    rw [h]
    rfl
  | @noGraph d h =>
    have hrefused : ¬ d.graph.isConsistent = true :=
      mt Graph.isConsistent_iff.mp (Graph.validated?_eq_none_iff.mp h)
    exact if_neg hrefused

-- ── What is noted, and what is kept ───────────────────────────────────────────

/-- A tree is another one with the time of a sync of a file noted. -/
structure OnlyNoted (fileKey : String) (now : Instant) (before after : Json) : Prop where
  /-- the time of the sync is noted -/
  noted : after.getAt? (StatePath.lastSynced fileKey) = some now.toJson
  /-- nothing else changes -/
  frame : ∀ path, Path.Apart (StatePath.lastSynced fileKey) path →
    after.getAt? path = before.getAt? path
  /-- a file that was stored as an object keeps all its other fields, -/
  kept : ∀ fields, before.getAt? ["files", fileKey] = some (.object fields) →
    after.getAt? ["files", fileKey] =
      some (.object (Keyed.insert "lastSyncedAt" now.toJson fields))
  /-- and it is read with the goals and the graph that it had -/
  read : now.IsReal → ∀ fields f, before.getAt? ["files", fileKey] = some (.object fields) →
    FileState.ofJson? (.object fields) = some f →
    (after.getAt? ["files", fileKey]).bind FileState.ofJson? =
      some { f with lastSyncedAt := some now }

/-- The file, after the time of its sync is noted. -/
theorem getAt?_file_lastSyncedPatches (fileKey : String) (now : Instant) (tree : Json) :
    (Patch.applyAll (Derivation.lastSyncedPatches fileKey now) tree).getAt? ["files", fileKey] =
      some (Derivation.synced now ((tree.getAt? ["files", fileKey]).getD .null)) := by
  show (Json.alterAt (fun _ => now.toJson) (["files", fileKey] ++ ["lastSyncedAt"]) tree).getAt?
    ["files", fileKey] = _
  rw [Json.alterAt_append, Json.getAt?_alterAt_self]
  rfl

theorem onlyNoted_lastSyncedPatches (fileKey : String) (now : Instant) (tree : Json) :
    OnlyNoted fileKey now tree
      (Patch.applyAll (Derivation.lastSyncedPatches fileKey now) tree) where
  noted := Json.getAt?_alterAt_self (fun _ => now.toJson) _ tree
  frame _ h := Json.getAt?_alterAt_of_apart h (fun _ => now.toJson) tree
  kept fields h := by
    rw [getAt?_file_lastSyncedPatches, h]
    rfl
  read hnow fields f h hf := by
    rw [getAt?_file_lastSyncedPatches, h]
    exact Derivation.ofJson?_synced rfl hf hnow

/-- A sync that fails keeps the state of every tree, but for the time of the sync. -/
theorem failedSync_onlyNoted (h : FailedSync fileKey now patches) (tree : Json) :
    OnlyNoted fileKey now tree (Patch.applyAll patches tree) := by
  rw [h.patches_eq]
  exact onlyNoted_lastSyncedPatches fileKey now tree

/-- A derivation of an empty file whose root id was overwritten. -/
def lostRoot : Derivation where
  goals := .empty
  graph := { Graph.rootOnly "A.lean" with rootId := "lost" }
  declarations := []
  derivedAt := ⟨1700000000, 0⟩

/-- A tree in which the file is stored with goals that are no table. -/
def oddTree : Json := .object [("files", .object [("A.lean", .object [("goals", .int 3)])])]

theorem failedSync_onlyNoted_lostRoot :
    lostRoot.graph.validated? = none ∧
      (Patch.applyAll (Derivation.patches "A.lean" lostRoot) oddTree).getAt?
        (StatePath.goals "A.lean") = some (.int 3) ∧
      OnlyNoted "A.lean" lostRoot.derivedAt oddTree
        (Patch.applyAll (Derivation.patches "A.lean" lostRoot) oddTree) := by
  have hrefused : lostRoot.graph.validated? = none :=
    Graph.validated?_eq_none_iff.mpr fun h => absurd h.root (by decide)
  have honly := failedSync_onlyNoted (@FailedSync.noGraph "A.lean" lostRoot hrefused) oddTree
  exact ⟨hrefused, honly.frame _ (by unfold Path.Apart; decide), honly⟩

end ProofLedger
