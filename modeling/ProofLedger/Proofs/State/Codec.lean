import ProofLedger.ProofState
import ProofLedger.Proofs.Instant.Text
import ProofLedger.Proofs.Json.Record

/-!
# Stored values read back

Every typed value that the engine writes into the tree is a well-formed document, and is read
back as it was. For the latter times must be real and scores finite; nothing else can go
wrong, whatever texts and numbers a value carries.
-/

namespace ProofLedger

open Json (record?_ofPresent)
open Json.Record (required_eq optional_map)

/-- An instant is written as a text. -/
@[simp] theorem Instant.wellFormed_toJson (t : Instant) : t.toJson.WellFormed := .string _

-- ── Constants ─────────────────────────────────────────────────────────────────

/-- A category is read back from its name. -/
theorem Category.ofJson?_toJson (c : Category) : ofJson? c.toJson = some c := by
  cases c <;> rfl

@[simp] theorem Category.wellFormed_toJson (c : Category) : c.toJson.WellFormed := .string _

/-- A result is read back from its name. -/
theorem AttemptResult.ofJson?_toJson (r : AttemptResult) : ofJson? r.toJson = some r := by
  cases r <;> rfl

@[simp] theorem AttemptResult.wellFormed_toJson (r : AttemptResult) : r.toJson.WellFormed :=
  .string _

/-- The status of a goal is read back from its name. -/
theorem GoalStatus.ofJson?_toJson (s : GoalStatus) : ofJson? s.toJson = some s := by
  cases s <;> rfl

@[simp] theorem GoalStatus.wellFormed_toJson (s : GoalStatus) : s.toJson.WellFormed := .string _

/-- The kind of a node is read back from its name. -/
theorem NodeKind.ofJson?_toJson (k : NodeKind) : ofJson? k.toJson = some k := by
  cases k <;> rfl

@[simp] theorem NodeKind.wellFormed_toJson (k : NodeKind) : k.toJson.WellFormed := .string _

/-- The status of a node is read back from its name. -/
theorem NodeStatus.ofJson?_toJson (s : NodeStatus) : ofJson? s.toJson = some s := by
  cases s <;> rfl

@[simp] theorem NodeStatus.wellFormed_toJson (s : NodeStatus) : s.toJson.WellFormed := .string _

-- ── Goals and graphs ──────────────────────────────────────────────────────────

@[simp] theorem Goal.wellFormed_toJson (g : Goal) : g.toJson.WellFormed :=
  .ofPresent (by simp)

/-- A goal is read back as it was written. -/
theorem Goal.ofJson?_toJson (g : Goal) : ofJson? g.toJson = some g := by
  unfold toJson ofJson?
  rw [record?_ofPresent (by simp)]
  simp only [Option.bind_eq_bind, Option.bind_some, Option.bind_eq_some_iff, Option.pure_def]
  exact ⟨g.id, rfl, g.statement, rfl, g.status, g.status.ofJson?_toJson, g.goalText,
    optional_map rfl (fun _ _ => rfl) rfl, rfl⟩

@[simp] theorem Position.wellFormed_toJson (p : Position) : p.toJson.WellFormed :=
  .ofFields (by simp)

/-- A position is read back as it was written. -/
theorem Position.ofJson?_toJson (p : Position) : ofJson? p.toJson = some p := by
  unfold toJson ofJson?
  rw [Json.record?_ofFields (by simp)]
  simp only [Option.bind_eq_bind, Option.bind_some, Option.bind_eq_some_iff, Option.pure_def]
  exact ⟨p.line, Json.asUInt32?_ofNat _, p.column, Json.asUInt32?_ofNat _, rfl⟩

@[simp] theorem SourceRange.wellFormed_toJson (r : SourceRange) : r.toJson.WellFormed :=
  .ofFields (by simp)

/-- A range is read back as it was written. -/
theorem SourceRange.ofJson?_toJson (r : SourceRange) : ofJson? r.toJson = some r := by
  unfold toJson ofJson?
  rw [Json.record?_ofFields (by simp)]
  simp only [Option.bind_eq_bind, Option.bind_some, Option.bind_eq_some_iff, Option.pure_def]
  exact ⟨r.start, r.start.ofJson?_toJson, r.stop, r.stop.ofJson?_toJson, rfl⟩

@[simp] theorem GraphNode.wellFormed_toJson (n : GraphNode) : n.toJson.WellFormed :=
  .ofPresent (by simp)

/-- A node is read back as it was written, with or without an error. -/
theorem GraphNode.ofJson?_toJson (n : GraphNode) : ofJson? n.toJson = some n := by
  unfold toJson ofJson?
  rw [record?_ofPresent (by simp)]
  simp only [Option.bind_eq_bind, Option.bind_some, Option.bind_eq_some_iff, Option.pure_def]
  exact ⟨n.nodeId, rfl, n.label, rfl, n.kind, n.kind.ofJson?_toJson,
    n.range, optional_map rfl (fun r _ => r.ofJson?_toJson) rfl,
    n.parentId, optional_map rfl (fun _ _ => rfl) rfl,
    n.status, n.status.ofJson?_toJson,
    n.errorMessage, optional_map rfl (fun _ _ => rfl) rfl,
    n.errorCategory, optional_map rfl (fun c _ => c.ofJson?_toJson) rfl,
    n.goalId, optional_map rfl (fun _ _ => rfl) rfl, rfl⟩

@[simp] theorem GraphEdge.wellFormed_toJson (e : GraphEdge) : e.toJson.WellFormed :=
  .ofFields (by simp)

/-- An edge is read back as it was written. -/
theorem GraphEdge.ofJson?_toJson (e : GraphEdge) : ofJson? e.toJson = some e := by
  unfold toJson ofJson?
  rw [Json.record?_ofFields (by simp)]
  rfl

/-- The nodes and the edges of a graph are written as lists. -/
@[simp] theorem Graph.wellFormed_toJson (g : Graph) : g.toJson.WellFormed :=
  .ofFields (by simp [Json.WellFormed.ofTable, Json.WellFormed.ofList])

/-- A graph is read back as it was written. -/
theorem Graph.ofJson?_toJson (g : Graph) : ofJson? g.toJson = some g := by
  unfold toJson ofJson?
  rw [Json.record?_ofFields (by simp)]
  simp only [Option.bind_eq_bind, Option.bind_some, Option.bind_eq_some_iff, Option.pure_def]
  exact ⟨g.nodes, Json.asTableOf?_ofTable fun _ n _ => n.ofJson?_toJson,
    g.edges, Json.asListOf?_ofList fun e _ => e.ofJson?_toJson, g.rootId, rfl, rfl⟩

-- ── Attempts and patterns ─────────────────────────────────────────────────────

@[simp] theorem AttemptRecord.wellFormed_toJson (a : AttemptRecord) : a.toJson.WellFormed :=
  .ofPresent (by simp)

/-- An attempt with a real time is read back as it was written. -/
theorem AttemptRecord.ofJson?_toJson {a : AttemptRecord} (h : a.timestamp.IsReal) :
    ofJson? a.toJson = some a := by
  unfold toJson ofJson?
  rw [record?_ofPresent (by simp)]
  simp only [Option.bind_eq_bind, Option.bind_some, Option.bind_eq_some_iff, Option.pure_def]
  exact ⟨a.id, rfl, a.fileKey, rfl, a.nodeId, rfl, a.timestamp, required_eq rfl h.ofJson?_toJson,
    a.tactic, rfl, a.tacticKey, rfl, a.result, a.result.ofJson?_toJson,
    a.category, optional_map rfl (fun c _ => c.ofJson?_toJson) rfl,
    a.errorMessage, optional_map rfl (fun _ _ => rfl) rfl,
    a.durationMs, optional_map rfl (fun n _ => Json.asUInt64?_ofNat n) rfl, rfl⟩

@[simp] theorem PatternEntry.wellFormed_toJson (p : PatternEntry) : p.toJson.WellFormed :=
  .ofPresent (by simp)

/-- A pattern is read back as it was written, if its time is real and its score a number. -/
theorem PatternEntry.ofJson?_toJson {p : PatternEntry} (h : p.lastUpdated.IsReal)
    (hscore : p.score.isFinite = true) : ofJson? p.toJson = some p := by
  unfold toJson ofJson?
  rw [record?_ofPresent (by simp)]
  simp only [Option.bind_eq_bind, Option.bind_some, Option.bind_eq_some_iff, Option.pure_def]
  exact ⟨p.key, rfl, p.category, p.category.ofJson?_toJson, p.tacticKey, rfl,
    p.successCount, Json.asUInt64?_ofNat _, p.failureCount, Json.asUInt64?_ofNat _,
    p.score, Json.asFloat?_ofFloat hscore, p.lastUpdated, required_eq rfl h.ofJson?_toJson,
    p.goalSignature, optional_map rfl (fun _ _ => rfl) rfl, rfl⟩

-- ── Suggestions ───────────────────────────────────────────────────────────────

@[simp] theorem SuggestionEntry.wellFormed_toJson (s : SuggestionEntry) : s.toJson.WellFormed :=
  .ofPresent (by simp)

/-- A suggestion is read back as it was written, if its time is real and its rates are numbers. -/
theorem SuggestionEntry.ofJson?_toJson {s : SuggestionEntry} (h : s.generatedAt.IsReal)
    (hscore : s.score.isFinite = true) (hrate : s.successRate.isFinite = true) :
    ofJson? s.toJson = some s := by
  unfold toJson ofJson?
  rw [record?_ofPresent (by simp)]
  simp only [Option.bind_eq_bind, Option.bind_some, Option.bind_eq_some_iff, Option.pure_def]
  exact ⟨s.nodeId, rfl, s.tacticKey, rfl, s.score, Json.asFloat?_ofFloat hscore,
    s.sampleSize, Json.asUInt64?_ofNat _, s.successRate, Json.asFloat?_ofFloat hrate,
    s.sourceCategory, optional_map rfl (fun c _ => c.ofJson?_toJson) rfl,
    s.generatedAt, required_eq rfl h.ofJson?_toJson, rfl⟩

@[simp] theorem SuggestionSlot.wellFormed_toJson (s : SuggestionSlot) : s.toJson.WellFormed :=
  .ofFields (by simp [Json.WellFormed.ofList])

/-- A slot is read back as it was written, if its time is real and its suggestions are. -/
theorem SuggestionSlot.ofJson?_toJson {s : SuggestionSlot} (h : s.generatedAt.IsReal)
    (hentries : ∀ e ∈ s.entries, SuggestionEntry.ofJson? e.toJson = some e) :
    ofJson? s.toJson = some s := by
  unfold toJson ofJson?
  rw [Json.record?_ofFields (by simp)]
  simp only [Option.bind_eq_bind, Option.bind_some, Option.bind_eq_some_iff, Option.pure_def]
  exact ⟨s.fileKey, rfl, s.nodeId, rfl, s.entries, Json.asListOf?_ofList hentries,
    s.generatedAt, required_eq rfl h.ofJson?_toJson, rfl⟩

end ProofLedger
