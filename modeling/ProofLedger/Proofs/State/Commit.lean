import ProofLedger.Derivation.Commit
import ProofLedger.Proofs.State.Codec
import ProofLedger.Proofs.State.Sections

/-!
# Committing to a file

What the patches of a commit make of the stored state of a file: the time of a sync replaces the
time that was there, and a derivation replaces everything.
-/

namespace ProofLedger

open Json (alterAt)

/-- How the state of a file is read from an opened record. -/
theorem FileState.ofJson?_eq_some_iff {v : Json} (hv : v = .object v.fields) {f : FileState} :
    ofJson? v = some f ↔
      Json.Record.defaulted (fun name => v.get? name) "goals" Table.empty
        (Json.asTableOf? Goal.ofJson?) = some f.goals ∧
      Json.Record.optional (fun name => v.get? name) "graph" Graph.ofJson? = some f.graph ∧
      Json.Record.optional (fun name => v.get? name) "lastSyncedAt" Instant.ofJson? =
        some f.lastSyncedAt := by
  unfold ofJson?
  rw [Json.record?_object hv]
  simp only [Option.bind_eq_bind, Option.bind_some, Option.bind_eq_some_iff, Option.pure_def,
    Option.some.injEq]
  constructor
  · rintro ⟨_, h1, _, h2, _, h3, rfl⟩
    exact ⟨h1, h2, h3⟩
  · rintro ⟨h1, h2, h3⟩
    exact ⟨_, h1, _, h2, _, h3, rfl⟩

namespace Derivation

/-- What noting the time of a sync makes of a stored file. -/
def synced (now : Instant) (v : Json) : Json := alterAt (fun _ => now.toJson) ["lastSyncedAt"] v

/-- What committing a derivation makes of a stored file. -/
def committed (d : Derivation) (v : Json) : Json :=
  synced d.derivedAt (alterAt (fun _ => d.graph.toJson) ["graph"]
    (alterAt (fun _ => .ofTable Goal.toJson d.goals) ["goals"] v))

private theorem synced_object (now : Instant) (v : Json) :
    synced now v = .object (synced now v).fields := by
  unfold synced
  rw [Json.alterAt_cons]
  rfl

private theorem optional_synced {now : Instant} (h : now.IsReal) (v : Json) :
    Json.Record.optional (fun name => (synced now v).get? name) "lastSyncedAt" Instant.ofJson? =
      some (some now) :=
  Json.Record.optional_eq (Json.get?_alterAt_self _ _ _ _) h.ofJson?_toJson rfl

private theorem get?_synced_ne {name : String} (h : "lastSyncedAt" ≠ name) (now : Instant)
    (v : Json) : (synced now v).get? name = v.get? name :=
  Json.get?_alterAt_ne _ h _ _

/-- A file that was stored as an object keeps its goals and its graph. -/
theorem ofJson?_synced {v : Json} {f : FileState} {now : Instant} (hv : v = .object v.fields)
    (hf : FileState.ofJson? v = some f) (hnow : now.IsReal) :
    FileState.ofJson? (synced now v) = some { f with lastSyncedAt := some now } := by
  obtain ⟨hgoals, hgraph, -⟩ := (FileState.ofJson?_eq_some_iff hv).mp hf
  refine (FileState.ofJson?_eq_some_iff (synced_object now v)).mpr
    ⟨?_, ?_, optional_synced hnow v⟩
  · rw [← hgoals]
    exact Json.Record.defaulted_congr (get?_synced_ne (by decide) now v) _ _
  · rw [← hgraph]
    exact Json.Record.optional_congr (get?_synced_ne (by decide) now v) _

/-- A file that was not stored before has nothing but the time of the sync. -/
theorem ofJson?_synced_null {now : Instant} (hnow : now.IsReal) :
    FileState.ofJson? (synced now .null) = some { lastSyncedAt := some now } := by
  have hempty : synced now .null = synced now Json.emptyObject := by
    unfold synced
    rw [Json.alterAt_cons, Json.alterAt_cons]
    rfl
  have hread : FileState.ofJson? Json.emptyObject = some {} := rfl
  rw [hempty]
  exact ofJson?_synced rfl hread hnow

/-- A derivation replaces whatever was stored. -/
theorem ofJson?_committed (d : Derivation) (h : d.derivedAt.IsReal) (v : Json) :
    FileState.ofJson? (committed d v) =
      some ⟨d.goals, some d.graph, some d.derivedAt⟩ := by
  have hgoals : (committed d v).get? "goals" = some (.ofTable Goal.toJson d.goals) := by
    unfold committed
    rw [get?_synced_ne (by decide), Json.get?_alterAt_ne _ (by decide), Json.get?_alterAt_self]
    rfl
  have hgraph : (committed d v).get? "graph" = some d.graph.toJson := by
    unfold committed
    rw [get?_synced_ne (by decide), Json.get?_alterAt_self]
    rfl
  refine (FileState.ofJson?_eq_some_iff (synced_object _ _)).mpr ⟨?_, ?_, optional_synced h _⟩
  · exact (Json.Record.defaulted_eq hgoals _ _).trans
      (Json.asTableOf?_ofTable fun _ g _ => g.ofJson?_toJson)
  · exact Json.Record.optional_eq hgraph d.graph.ofJson?_toJson rfl

-- ── The state after a commit ──────────────────────────────────────────────────

/-- A state with the time of a sync noted. -/
def touched (s : ProofState) (fileKey : String) (now : Instant) : ProofState :=
  { s with
    files := s.files.insert fileKey
      { (s.files.get? fileKey).getD {} with lastSyncedAt := some now } }

/-- A state with a derivation committed: a consistent one replaces what the file had, another
    only notes its time. -/
def committedTo (s : ProofState) (fileKey : String) (d : Derivation) : ProofState :=
  if d.graph.isConsistent then
    { s with files := s.files.insert fileKey ⟨d.goals, some d.graph, some d.derivedAt⟩ }
  else touched s fileKey d.derivedAt

theorem wellFormed_lastSyncedPatches (fileKey : String) (now : Instant) :
    ∀ p ∈ lastSyncedPatches fileKey now, p.WellFormed := by
  simp [lastSyncedPatches, Patch.wellFormed_set]

theorem wellFormed_patches (fileKey : String) (d : Derivation) :
    ∀ p ∈ patches fileKey d, p.WellFormed := by
  unfold patches
  split
  · simp [lastSyncedPatches, Patch.wellFormed_set, Json.WellFormed.ofTable]
  · exact wellFormed_lastSyncedPatches fileKey d.derivedAt

/-- A tree with the time of a sync holds the state with that time. The file must be stored as an
    object if it is there: one that is stored as an array is replaced. -/
theorem holds_touched {tree : Json} {s : ProofState} (hs : Holds tree s) {fileKey : String}
    {now : Instant} (hnow : now.IsReal)
    (hobject : Json.ObjectAt ["files", fileKey] tree) :
    Holds (Patch.applyAll (lastSyncedPatches fileKey now) tree) (touched s fileKey now) := by
  show Holds (alterAt (fun _ => now.toJson) ["files", fileKey, "lastSyncedAt"] tree) _
  refine hs.alterFile ?_
  rw [Json.objectAt_cons_cons] at hobject
  have hfiles := hs.files
  generalize tree.getD "files" = files at hfiles hobject
  show FileState.ofJson? (synced now (files.getD fileKey)) = _
  cases hv : files.get? fileKey with
  | none =>
    rw [hfiles.get?_eq_none hv, Json.getD, hv]
    exact ofJson?_synced_null hnow
  | some v =>
    obtain ⟨f, hf, hs⟩ := hfiles.read_of_get? hv
    rw [hs, Json.getD, hv]
    exact ofJson?_synced (hobject.eq_object hv) hf hnow

theorem applyAll_patches_of_isConsistent {d : Derivation} (h : d.graph.isConsistent = true)
    (fileKey : String) (tree : Json) :
    Patch.applyAll (patches fileKey d) tree = alterAt (committed d) ["files", fileKey] tree := by
  have happend : ∀ (change : Json → Json) (name : String) (v : Json),
      alterAt change ["files", fileKey, name] v =
        alterAt (alterAt change [name]) ["files", fileKey] v :=
    fun change name v => Json.alterAt_append change ["files", fileKey] [name] v
  unfold patches
  rw [if_pos h]
  show alterAt (fun _ => d.derivedAt.toJson) ["files", fileKey, "lastSyncedAt"]
    (alterAt (fun _ => d.graph.toJson) ["files", fileKey, "graph"]
      (alterAt (fun _ => .ofTable Goal.toJson d.goals) ["files", fileKey, "goals"] tree)) = _
  rw [happend, happend, happend, Json.alterAt_alterAt, Json.alterAt_alterAt]
  rfl

/-- After the patches of a derivation the tree holds the state with the derivation. Only for an
    inconsistent graph it matters how the file was stored. -/
theorem holds_committedTo {tree : Json} {s : ProofState} (hs : Holds tree s) {fileKey : String}
    {d : Derivation} (htime : d.derivedAt.IsReal)
    (hobject : d.graph.isConsistent = false → Json.ObjectAt ["files", fileKey] tree) :
    Holds (Patch.applyAll (patches fileKey d) tree) (committedTo s fileKey d) := by
  unfold committedTo
  cases h : d.graph.isConsistent with
  | true =>
    rw [applyAll_patches_of_isConsistent h]
    exact hs.alterFile (ofJson?_committed d htime _)
  | false =>
    have hpatches : patches fileKey d = lastSyncedPatches fileKey d.derivedAt := by
      unfold patches
      rw [h]
      rfl
    rw [hpatches]
    exact holds_touched hs htime (hobject h)

end Derivation

end ProofLedger
