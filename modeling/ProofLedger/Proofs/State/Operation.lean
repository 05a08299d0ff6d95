import ProofLedger.Proofs.State.Cache
import ProofLedger.Proofs.State.Commit
import ProofLedger.Proofs.State.Ledger

/-!
# Operations on a state tree

The engine reads a typed state from a tree and answers with patches; another part applies them.
Each operation has a meaning on typed states (`change`), and applying its patches to the tree is
that change: the tree is still readable, and it is read as the changed state.

Histories and file states are changed in place. That keeps what they hold only if they are
stored as objects, as the engine itself stores them: a record may also be read from an array of
its fields, but a patch below it replaces such an array by an object.
-/

namespace ProofLedger

/-- An operation of the engine that answers with patches. -/
inductive Operation where
  /-- records an attempt -/
  | record (input : AttemptInput) (now : Instant)
  /-- refreshes the suggestions for an obligation -/
  | suggest (fileKey nodeId : String) (now : Instant)
  /-- commits a derivation to a file -/
  | commit (fileKey : String) (derivation : Derivation)
  /-- notes the time of a sync that derived nothing -/
  | touch (fileKey : String) (now : Instant)

namespace Operation

/-- The patches of an operation. -/
def patches (settings : RankingSettings) (s : ProofState) : Operation → List Patch
  | record a now => Ledger.record s a now
  | suggest fileKey nodeId now => Recommendation.suggest settings s fileKey nodeId now
  | commit fileKey d => Derivation.patches fileKey d
  | touch fileKey now => Derivation.lastSyncedPatches fileKey now

/-- What an operation means for a typed state. -/
def change (settings : RankingSettings) (s : ProofState) : Operation → ProofState
  | record a now => Ledger.recorded s a now
  | suggest fileKey nodeId now => Recommendation.refreshed settings s fileKey nodeId now
  | commit fileKey d => Derivation.committedTo s fileKey d
  | touch fileKey now => Derivation.touched s fileKey now

/-- The tree after an operation. -/
def run (settings : RankingSettings) (tree : Json) (op : Operation) : Json :=
  Patch.applyAll (op.patches settings (ProofState.ofJson tree)) tree

/-- The time that an operation is given. -/
def time : Operation → Instant
  | record _ now => now
  | suggest _ _ now => now
  | commit _ d => d.derivedAt
  | touch _ now => now

/-- The time that an operation writes: its own, unless a slot must be newer than all others. Then
    there may be none that has a year. -/
def stamp? (s : ProofState) : Operation → Option Instant
  | suggest _ _ now => Recommendation.nextGeneration? s now
  | op => some op.time

/-- Whether an operation is given a real time and writes one of the years 1 to 9999. -/
structure Timely (s : ProofState) (op : Operation) : Prop where
  real : op.time.IsReal
  years : ∃ t, op.stamp? s = some t ∧ t.InYears

/-- The stored record of which an operation changes a part. -/
def home? : Operation → Option Path
  | record a _ => a.resolvedKey?.map fun _ => StatePath.nodeHistory a.fileKey a.nodeId
  | suggest _ _ _ => none
  | commit fileKey d => if d.graph.isConsistent then none else some ["files", fileKey]
  | touch fileKey _ => some ["files", fileKey]

/-- Whether the record of which an operation changes a part is an object, if it is there. -/
def HomeIsObject (tree : Json) (op : Operation) : Prop :=
  ∀ path, op.home? = some path → Json.ObjectAt path tree

theorem wellFormed_patches (settings : RankingSettings) (s : ProofState) (op : Operation) :
    ∀ p ∈ op.patches settings s, p.WellFormed := by
  cases op with
  | record a now => exact Ledger.wellFormed_record s a now
  | suggest fileKey nodeId now =>
    exact Recommendation.wellFormed_suggest settings s fileKey nodeId now
  | commit fileKey d => exact Derivation.wellFormed_patches fileKey d
  | touch fileKey now => exact Derivation.wellFormed_lastSyncedPatches fileKey now

/-- After the patches of an operation, which is given a real time, the tree represents the changed
    state. -/
theorem represents_step (settings : RankingSettings) {tree : Json} {s : ProofState}
    (h : Represents tree s) {op : Operation} (hreal : op.time.IsReal)
    (hhome : op.HomeIsObject tree) :
    Represents (Patch.applyAll (op.patches settings s) tree) (op.change settings s) := by
  have hwf := Patch.wellFormed_applyAll (wellFormed_patches settings s op) h.wellFormed
  cases op with
  | record a now =>
    have hhistory : a.resolvedKey?.isSome = true →
        Json.ObjectAt (StatePath.nodeHistory a.fileKey a.nodeId) tree := by
      intro hvalid
      obtain ⟨tacticKey, hkey⟩ := Option.isSome_iff_exists.mp hvalid
      exact hhome _ (by rw [home?, hkey, Option.map_some])
    obtain ⟨hholds, hkeyed⟩ :=
      Ledger.holds_recorded h.wellFormed h.holds h.keyed hreal hhistory
    exact ⟨hwf, hholds, hkeyed⟩
  | suggest fileKey nodeId now =>
    have hstamp := Recommendation.isReal_nextGeneration?
      (fun slot hslot => h.holds.isReal_generatedAt hslot) hreal
    refine ⟨hwf, Recommendation.holds_refreshed h.wellFormed h.holds settings fileKey nodeId
      hstamp, ?_⟩
    show (Recommendation.refreshed settings s fileKey nodeId now).KeyedPatterns
    unfold Recommendation.refreshed
    split <;> exact h.keyed
  | commit fileKey d =>
    refine ⟨hwf, Derivation.holds_committedTo h.holds hreal fun hinconsistent =>
      hhome _ (by rw [home?, hinconsistent]; rfl), ?_⟩
    show (Derivation.committedTo s fileKey d).KeyedPatterns
    unfold Derivation.committedTo
    split <;> exact h.keyed
  | touch fileKey now =>
    exact ⟨hwf, Derivation.holds_touched h.holds hreal (hhome _ rfl), h.keyed⟩

/-- Applying the patches of an operation to a state tree is the change that it means: the tree
    is a state tree again, and it is read as the changed state. -/
theorem ofJson_run (settings : RankingSettings) (tree : Json) (op : Operation)
    (htree : IsStateTree tree) (htimely : op.Timely (ProofState.ofJson tree))
    (hhome : op.HomeIsObject tree) :
    IsStateTree (op.run settings tree) ∧
      ProofState.ofJson (op.run settings tree) = op.change settings (ProofState.ofJson tree) :=
  (represents_step settings htree.represents htimely.real hhome).isStateTree

/-- A tree with nothing but the history of one obligation. -/
def treeOf (history : Json) : Json :=
  .ofFields [("history", .ofFields [("Main.lean", .ofFields [("n", history)])])]

/-- A failed attempt on that obligation. -/
def failedAttempt : Operation :=
  .record { fileKey := "Main.lean", nodeId := "n", tactic := "simp", result := .error }
    ⟨1709294400, 0⟩

theorem isStateTree_treeOf {history : Json} (hwf : history.WellFormed)
    (hread : (Json.asTableOf? (Json.asTableOf? NodeHistory.ofJson?)
      ((treeOf history).getD "history")).isSome = true) : IsStateTree (treeOf history) where
  wellFormed := .ofFields (by simp [Json.WellFormed.ofFields, hwf])
  readable := ⟨.inl rfl, .inr hread, .inl rfl, .inl rfl⟩
  keyed := fun _ _ hp => nomatch hp

private theorem timely_failedAttempt (s : ProofState) : failedAttempt.Timely s where
  real := show (Instant.mk 1709294400 0).IsReal by decide
  years := ⟨⟨1709294400, 0⟩, rfl, by
    show 1 ≤ (Instant.mk 1709294400 0).year ∧ (Instant.mk 1709294400 0).year ≤ 9999
    decide⟩

/-- A history with a success, stored as an object. -/
def namedHistory : Json :=
  .ofFields [("totalAttempts", .int 1), ("lastSuccessAt", .string "2024-01-01T00:00:00Z")]

/-- A history with a success, stored as an array of its fields. -/
def listedHistory : Json :=
  .array [.ofFields [], .int 0, .int 1, .null, .string "2024-01-01T00:00:00Z", .null]

/-- The time of the last success is kept in a history that is stored as an object. -/
theorem ofJson_run_failedAttempt :
    IsStateTree (failedAttempt.run {} (treeOf namedHistory)) ∧
      ProofState.ofJson (failedAttempt.run {} (treeOf namedHistory)) =
        failedAttempt.change {} (ProofState.ofJson (treeOf namedHistory)) := by
  have hwf : namedHistory.WellFormed := .ofFields (by simp [Json.WellFormed.int])
  refine ofJson_run {} _ failedAttempt (isStateTree_treeOf hwf (by decide +kernel))
    (timely_failedAttempt _) fun path hpath v hv => ?_
  cases hpath
  cases hv
  rfl

/-- It is lost from a history that is stored as an array of its fields. -/
theorem ofJson_run_array :
    IsStateTree (treeOf listedHistory) ∧
      failedAttempt.Timely (ProofState.ofJson (treeOf listedHistory)) ∧
      ProofState.ofJson (failedAttempt.run {} (treeOf listedHistory)) ≠
        failedAttempt.change {} (ProofState.ofJson (treeOf listedHistory)) := by
  have hwf : listedHistory.WellFormed := .array (by
    simp [Json.WellFormed.int, Json.WellFormed.null, Json.WellFormed.ofFields])
  refine ⟨isStateTree_treeOf hwf (by decide +kernel), timely_failedAttempt _, fun heq => ?_⟩
  have hkept := congrArg
    (fun s => ((s.nodeHistory? "Main.lean" "n").bind (·.lastSuccessAt)).isSome) heq
  exact absurd hkept (by decide +kernel)

end Operation

end ProofLedger
