import ProofLedger.Proofs.State.Codec
import ProofLedger.Proofs.State.Sections

/-!
# A stored state reads back

A state is written section by section, and each section is read back as it was, provided that the
state can be stored at all: a number that is not finite has no text, and an instant whose fraction
no clock can show has a text that no reader accepts (`Storable`). Every other value may be
anything: keys, texts and counters, and which of the optional fields there are.
-/

namespace ProofLedger

open Json (record?_ofPresent HoldsTable)
open Json.Record (optional_map)

section Tables

variable {α : Type} {p : α → Prop} {t : Table α} {k : String} {v : α}

theorem Table.forall_get?_empty : ∀ key x, (empty : Table α).get? key = some x → p x :=
  fun _ _ h => nomatch h

/-- What holds of the values of a table and of one more holds after that one is stored. -/
theorem Table.forall_get?_insert (ht : ∀ key x, t.get? key = some x → p x) (hv : p v) :
    ∀ key x, (t.insert k v).get? key = some x → p x := by
  intro key x hx
  by_cases hk : k = key
  · subst hk
    rw [get?_insert_self] at hx
    exact Option.some.inj hx ▸ hv
  · rw [get?_insert_ne t hk] at hx
    exact ht key x hx

end Tables

-- ── What can be stored ────────────────────────────────────────────────────────

/-- A file state whose time is real. -/
def FileState.Storable (f : FileState) : Prop := ∀ t ∈ f.lastSyncedAt, t.IsReal

/-- A history whose times are real, those of its attempts included. -/
structure NodeHistory.Storable (h : NodeHistory) : Prop where
  attempts : ∀ id a, h.attempts.get? id = some a → a.timestamp.IsReal
  lastAttemptAt : ∀ t ∈ h.lastAttemptAt, t.IsReal
  lastSuccessAt : ∀ t ∈ h.lastSuccessAt, t.IsReal
  lastFailureAt : ∀ t ∈ h.lastFailureAt, t.IsReal

/-- A pattern whose time is real and whose score is a number. -/
structure PatternEntry.Storable (p : PatternEntry) : Prop where
  lastUpdated : p.lastUpdated.IsReal
  score : p.score.isFinite = true

/-- A suggestion whose time is real and whose scores are numbers. -/
structure SuggestionEntry.Storable (s : SuggestionEntry) : Prop where
  generatedAt : s.generatedAt.IsReal
  score : s.score.isFinite = true
  successRate : s.successRate.isFinite = true

/-- A slot whose time is real and whose suggestions can be stored. -/
structure SuggestionSlot.Storable (s : SuggestionSlot) : Prop where
  generatedAt : s.generatedAt.IsReal
  entries : ∀ e ∈ s.entries, e.Storable

/-- A state whose instants are real, as all are outside of leap seconds, and whose scores are
    numbers. -/
structure ProofState.Storable (s : ProofState) : Prop where
  files : ∀ fileKey f, s.files.get? fileKey = some f → f.Storable
  history : ∀ fileKey nodes, s.history.get? fileKey = some nodes →
    ∀ nodeId h, nodes.get? nodeId = some h → h.Storable
  patterns : ∀ key p, s.patterns.get? key = some p → p.Storable
  suggestions : ∀ key slot, s.suggestions.get? key = some slot → slot.Storable

-- ── Values read back ──────────────────────────────────────────────────────────

theorem Instant.optional_eq {r : Json.Record} {name : String} {time : Option Instant}
    (h : ∀ t ∈ time, t.IsReal) (hr : r name = time.map toJson) :
    r.optional name ofJson? = some time :=
  optional_map hr (fun t ht => (h t ht).ofJson?_toJson) rfl

@[simp] theorem FileState.wellFormed_toJson (f : FileState) : f.toJson.WellFormed :=
  .ofPresent (by simp [Json.WellFormed.ofTable])

theorem FileState.ofJson?_toJson {f : FileState} (h : f.Storable) :
    ofJson? f.toJson = some f := by
  unfold toJson ofJson?
  rw [record?_ofPresent (by simp)]
  simp only [Option.bind_eq_bind, Option.bind_some, Option.bind_eq_some_iff, Option.pure_def]
  exact ⟨f.goals, Json.asTableOf?_ofTable fun _ g _ => g.ofJson?_toJson,
    f.graph, optional_map rfl (fun g _ => g.ofJson?_toJson) rfl,
    f.lastSyncedAt, Instant.optional_eq h rfl, rfl⟩

@[simp] theorem NodeHistory.wellFormed_toJson (h : NodeHistory) : h.toJson.WellFormed :=
  .ofPresent (by simp [Json.WellFormed.ofTable])

theorem NodeHistory.ofJson?_toJson {h : NodeHistory} (hs : h.Storable) :
    ofJson? h.toJson = some h := by
  unfold toJson ofJson?
  rw [record?_ofPresent (by simp)]
  simp only [Option.bind_eq_bind, Option.bind_some, Option.bind_eq_some_iff, Option.pure_def]
  exact ⟨h.attempts, Json.asTableOf?_ofTable fun id a ha =>
      AttemptRecord.ofJson?_toJson (hs.attempts id a ha),
    h.currentStreak, Json.asUInt32?_ofNat _, h.totalAttempts, Json.asUInt64?_ofNat _,
    h.lastAttemptAt, Instant.optional_eq hs.lastAttemptAt rfl,
    h.lastSuccessAt, Instant.optional_eq hs.lastSuccessAt rfl,
    h.lastFailureAt, Instant.optional_eq hs.lastFailureAt rfl, rfl⟩

theorem SuggestionSlot.Storable.read {s : SuggestionSlot} (h : s.Storable) :
    ofJson? s.toJson = some s :=
  ofJson?_toJson h.generatedAt fun e he =>
    have hentry := h.entries e he
    SuggestionEntry.ofJson?_toJson hentry.generatedAt hentry.score hentry.successRate

-- ── States ────────────────────────────────────────────────────────────────────

namespace ProofState

/-- The sections of a state in JSON. -/
def sections (s : ProofState) : List (String × Json) :=
  [("files", .ofTable FileState.toJson s.files),
    ("history", .ofTable (Json.ofTable NodeHistory.toJson) s.history),
    ("patterns", .ofTable PatternEntry.toJson s.patterns),
    ("suggestions", .ofTable SuggestionSlot.toJson s.suggestions)]

theorem wellFormed_toJson (s : ProofState) : s.toJson.WellFormed :=
  .ofFields (by simp [Json.WellFormed.ofTable])

theorem get?_toJson (s : ProofState) (name : String) :
    s.toJson.get? name = Keyed.find? name s.sections :=
  Keyed.find?_ofList (by simp) name

/-- A section that is stored under its name holds the table it was written from. -/
theorem holdsTable_section {α : Type} {s : ProofState} {name : String} {read : Json → Option α}
    {write : α → Json} {t : Table α}
    (hname : Keyed.find? name s.sections = some (.ofTable write t))
    (h : ∀ key x, t.get? key = some x → read (write x) = some x) :
    HoldsTable read (s.toJson.getD name) t := by
  have hsorted := (s.wellFormed_toJson.getD name).sorted
  rw [Json.getD, get?_toJson, hname, Option.getD_some] at hsorted ⊢
  exact Json.holdsTable_of_asTableOf? hsorted (Json.asTableOf?_ofTable h)

/-- The tree of a state that can be stored holds that state. -/
theorem Storable.holds_toJson {s : ProofState} (h : s.Storable) : Holds s.toJson s where
  files := holdsTable_section rfl fun key f hf => FileState.ofJson?_toJson (h.files key f hf)
  history := holdsTable_section rfl fun fileKey nodes hnodes =>
    Json.asTableOf?_ofTable fun nodeId node hnode =>
      NodeHistory.ofJson?_toJson (h.history fileKey nodes hnodes nodeId node hnode)
  patterns := holdsTable_section rfl fun key p hp =>
    PatternEntry.ofJson?_toJson (h.patterns key p hp).lastUpdated (h.patterns key p hp).score
  suggestions := holdsTable_section rfl fun key slot hslot => (h.suggestions key slot hslot).read

/-- The tree of a state that can be stored has no section that reads as empty because it does not
    decode: each of them is readable, and together they are the state. -/
theorem ofJson_toJson {s : ProofState} (h : s.Storable) :
    Readable s.toJson ∧ ofJson s.toJson = s := h.holds_toJson.readable

/-- A state with each kind of value in it, with and without its optional fields. -/
def assorted : ProofState :=
  let first : Instant := ⟨-62135596800, 1⟩
  let last : Instant := ⟨253402300799, 999999999⟩
  let node : GraphNode :=
    { nodeId := "n", label := "theorem n", kind := .theorem_, status := .error,
      range := some ⟨⟨1, 1⟩, ⟨0xFFFFFFFF, 0⟩⟩, parentId := some "root",
      errorMessage := some "unknown identifier \"x\"\n", errorCategory := some .other,
      goalId := some "" }
  let attempt : AttemptRecord :=
    { id := "n#000001", fileKey := "A.lean", nodeId := "n", timestamp := last, tactic := "simp",
      tacticKey := "simp", result := .timeout, category := some .other, durationMs := some 3 }
  { files := (Table.empty.insert "A.lean"
      { goals := Table.empty.insert "g" ⟨"g", "1 = 1", .pending, some "⊢ 1 = 1"⟩
        graph := some ((Graph.rootOnly "A.lean").attachToRoot node)
        lastSyncedAt := some last }).insert "" {}
    history := Table.empty.insert "A.lean" (Table.empty.insert "n"
      { attempts := Table.empty.insert "n#000001" attempt
        currentStreak := 1, totalAttempts := 1
        lastAttemptAt := some last, lastFailureAt := some first })
    patterns := Table.empty.insert "other:simp"
      { PatternEntry.unused .other "simp" first with score := -0.0, goalSignature := some "" }
    suggestions := Table.empty.insert "A.lean#n" ⟨"A.lean", "n",
      [⟨"n", "simp", 0.1, 3, successRate 1 3, none, last⟩], first⟩ }

theorem storable_assorted : assorted.Storable where
  files := Table.forall_get?_insert
    (Table.forall_get?_insert Table.forall_get?_empty fun t ht => by
      cases ht; decide)
    fun t ht => by cases ht
  history := Table.forall_get?_insert Table.forall_get?_empty <|
    Table.forall_get?_insert Table.forall_get?_empty
      { attempts := Table.forall_get?_insert Table.forall_get?_empty (by decide)
        lastAttemptAt := fun t ht => by cases ht; decide
        lastSuccessAt := fun t ht => by cases ht
        lastFailureAt := fun t ht => by cases ht; decide }
  patterns := Table.forall_get?_insert Table.forall_get?_empty ⟨by decide, by decide⟩
  suggestions := Table.forall_get?_insert Table.forall_get?_empty
    ⟨by decide, by
      intro e he
      cases List.mem_singleton.mp he
      exact ⟨by decide, by decide, isFinite_successRate 1 3⟩⟩

theorem ofJson_toJson_assorted :
    assorted.Storable ∧ Readable assorted.toJson ∧ ofJson assorted.toJson = assorted :=
  ⟨storable_assorted, ofJson_toJson storable_assorted⟩

end ProofState

end ProofLedger
