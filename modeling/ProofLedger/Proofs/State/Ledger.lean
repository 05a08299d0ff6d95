import ProofLedger.Ledger
import ProofLedger.Proofs.State.Codec
import ProofLedger.Proofs.State.Sections

/-!
# Appending to a history

The two patches of an attempt, one for the record and one for the counters, together turn the
stored history of an obligation into the history with one more attempt. The counters are merged,
so the time of the last success or failure that an attempt does not set stays as it was.
-/

namespace ProofLedger

open Json (alterAt mergeWith)

/-- How a history is read from an opened record. -/
theorem NodeHistory.ofJson?_eq_some_iff {v : Json} (hv : v = .object v.fields)
    {h : NodeHistory} :
    ofJson? v = some h ↔
      Json.Record.defaulted (fun name => v.get? name) "attempts" Table.empty
        (Json.asTableOf? AttemptRecord.ofJson?) = some h.attempts ∧
      Json.Record.defaulted (fun name => v.get? name) "currentStreak" 0 Json.asUInt32? =
        some h.currentStreak ∧
      Json.Record.defaulted (fun name => v.get? name) "totalAttempts" 0 Json.asUInt64? =
        some h.totalAttempts ∧
      Json.Record.optional (fun name => v.get? name) "lastAttemptAt" Instant.ofJson? =
        some h.lastAttemptAt ∧
      Json.Record.optional (fun name => v.get? name) "lastSuccessAt" Instant.ofJson? =
        some h.lastSuccessAt ∧
      Json.Record.optional (fun name => v.get? name) "lastFailureAt" Instant.ofJson? =
        some h.lastFailureAt := by
  unfold ofJson?
  rw [Json.record?_object hv]
  simp only [Option.bind_eq_bind, Option.bind_some, Option.bind_eq_some_iff, Option.pure_def,
    Option.some.injEq]
  constructor
  · rintro ⟨_, h1, _, h2, _, h3, _, h4, _, h5, _, h6, rfl⟩
    exact ⟨h1, h2, h3, h4, h5, h6⟩
  · rintro ⟨h1, h2, h3, h4, h5, h6⟩
    exact ⟨_, h1, _, h2, _, h3, _, h4, _, h5, _, h6, rfl⟩

namespace Ledger

/-- The history of an obligation with one more attempt. -/
def appended (h : Option NodeHistory) (r : AttemptRecord) : NodeHistory :=
  let prior := h.getD {}
  let success := r.result.isSuccess
  { attempts := prior.attempts.insert r.id r
    currentStreak := nextStreak h success
    totalAttempts := attemptsSoFar h + 1
    lastAttemptAt := some r.timestamp
    lastSuccessAt := if success then some r.timestamp else prior.lastSuccessAt
    lastFailureAt := if success then prior.lastFailureAt else some r.timestamp }

/-- What the patches of an attempt make of a stored history. -/
def stored (h : Option NodeHistory) (r : AttemptRecord) (v : Json) : Json :=
  mergeWith (some (counters h r)) (alterAt (fun _ => r.toJson) ["attempts", r.id] v)

/-- What is found in a stored history after an attempt: a counter if there is one of the name,
    and otherwise what was there, or the attempts. -/
theorem get?_stored (h : Option NodeHistory) (r : AttemptRecord) (v : Json) (name : String) :
    (stored h r v).get? name = ((counters h r).get? name).or
      ((alterAt (fun _ => r.toJson) ["attempts", r.id] v).get? name) :=
  Json.get?_mergeWith (Keyed.sorted_ofList _) name _

private theorem get?_counters (h : Option NodeHistory) (r : AttemptRecord) (name : String) :
    (counters h r).get? name = (Keyed.find? name
      [("currentStreak", some (.ofNat (nextStreak h r.result.isSuccess).toNat)),
        ("totalAttempts", some (.ofNat (attemptsSoFar h + 1).toNat)),
        ("lastAttemptAt", some r.timestamp.toJson),
        ("lastSuccessAt", if r.result.isSuccess then some r.timestamp.toJson else none),
        ("lastFailureAt", if r.result.isSuccess then none else some r.timestamp.toJson)]).join :=
  Json.get?_ofPresent (by simp) name

private theorem get?_stored_counter {h : Option NodeHistory} {r : AttemptRecord} {name : String}
    {counter : Json} (hcounter : (counters h r).get? name = some counter) (v : Json) :
    (stored h r v).get? name = some counter := by
  rw [get?_stored, hcounter]
  rfl

/-- The counters leave the attempts alone. -/
theorem get?_attempts_stored (h : Option NodeHistory) (r : AttemptRecord) (v : Json) :
    (stored h r v).get? "attempts" =
      some (alterAt (fun _ => r.toJson) [r.id] (v.getD "attempts")) := by
  rw [get?_stored, get?_counters, Json.get?_alterAt_self]
  rfl

/-- A time is that of the attempt if the attempt writes it, and otherwise the one before. -/
private theorem optional_stored {h : Option NodeHistory} {r : AttemptRecord} {v : Json}
    {name : String} {old : Option Instant} (written : Bool) (hname : "attempts" ≠ name)
    (hr : r.timestamp.IsReal)
    (hcounter : (counters h r).get? name = if written then some r.timestamp.toJson else none)
    (hold : Json.Record.optional (fun name => v.get? name) name Instant.ofJson? = some old) :
    Json.Record.optional (fun name => (stored h r v).get? name) name Instant.ofJson? =
      some (if written then some r.timestamp else old) := by
  cases written with
  | true =>
    exact Json.Record.optional_eq (get?_stored_counter hcounter v) hr.ofJson?_toJson rfl
  | false =>
    refine (Json.Record.optional_congr ?_ _).trans hold
    rw [get?_stored, hcounter, Json.get?_alterAt_ne _ hname]
    rfl

/-- What is stored after an attempt is read as the history with one more attempt. -/
theorem ofJson?_stored {v : Json} {prior : NodeHistory} {r : AttemptRecord}
    (hv : v = .object v.fields) (hwf : v.WellFormed) (hprior : NodeHistory.ofJson? v = some prior)
    (hr : r.timestamp.IsReal) :
    NodeHistory.ofJson? (stored (some prior) r v) = some (appended (some prior) r) := by
  obtain ⟨hattempts, -, -, hlast, hsuccess, hfailure⟩ :=
    (NodeHistory.ofJson?_eq_some_iff hv).mp hprior
  have hobject : stored (some prior) r v = .object (stored (some prior) r v).fields := by
    unfold stored
    rw [Json.alterAt_cons]
    rfl
  have htable : Json.HoldsTable AttemptRecord.ofJson?
      (alterAt (fun _ => r.toJson) [r.id] (v.getD "attempts"))
      (prior.attempts.insert r.id r) :=
    (Json.holdsTable_of_defaulted hwf hattempts).alterAt (AttemptRecord.ofJson?_toJson hr)
  have hat := get?_attempts_stored (some prior) r v
  have hwritten : (counters (some prior) r).get? "lastFailureAt" =
      if !r.result.isSuccess then some r.timestamp.toJson else none := by
    rw [get?_counters]
    cases r.result.isSuccess <;> rfl
  refine (NodeHistory.ofJson?_eq_some_iff hobject).mpr ⟨?_, ?_, ?_, ?_, ?_, ?_⟩
  · exact (Json.Record.defaulted_eq hat _ _).trans
      (htable.asTableOf? (by rw [Json.alterAt_cons]; rfl))
  · exact (Json.Record.defaulted_eq (get?_stored_counter (by rw [get?_counters]; rfl) v) _ _).trans
      (Json.asUInt32?_ofNat _)
  · exact (Json.Record.defaulted_eq (get?_stored_counter (by rw [get?_counters]; rfl) v) _ _).trans
      (Json.asUInt64?_ofNat _)
  · exact optional_stored true (by decide) hr (by rw [get?_counters]; rfl) hlast
  · exact optional_stored r.result.isSuccess (by decide) hr (by rw [get?_counters]; rfl) hsuccess
  · rw [optional_stored (!r.result.isSuccess) (by decide) hr hwritten hfailure]
    show some _ = some (if r.result.isSuccess then prior.lastFailureAt else some r.timestamp)
    cases r.result.isSuccess <;> rfl

/-- The first attempt is stored as if there had been a history without attempts. -/
theorem ofJson?_stored_null {r : AttemptRecord} (hr : r.timestamp.IsReal) :
    NodeHistory.ofJson? (stored none r .null) = some (appended none r) := by
  have hempty : Json.emptyObject.WellFormed := .object Keyed.sorted_nil (List.forall_mem_nil _)
  have hcounters : counters none r = counters (some {}) r := rfl
  have hstored : stored none r .null = stored (some {}) r Json.emptyObject := by
    unfold stored
    rw [hcounters, Json.alterAt_cons, Json.alterAt_cons]
    rfl
  rw [hstored]
  exact ofJson?_stored rfl hempty rfl hr

-- ── Recording ─────────────────────────────────────────────────────────────────

/-- A state with an attempt recorded: the history of the obligation has one more attempt, and
    the pattern of the attempt counts it. -/
def recorded (s : ProofState) (a : AttemptInput) (now : Instant) : ProofState :=
  match a.resolvedKey? with
  | none => s
  | some tacticKey =>
    let h := s.nodeHistory? a.fileKey a.nodeId
    let r := nextRecord h a tacticKey now
    { s with
      history := s.history.insert a.fileKey
        (((s.history.get? a.fileKey).getD Table.empty).insert a.nodeId (appended h r))
      patterns := s.patterns.insert (patternKey r.countedCategory r.tacticKey)
        (observedPattern s r (signatureOf s a) now) }

/-- The two patches of an attempt are one change of the stored history. -/
theorem applyAll_patches (h : Option NodeHistory) (r : AttemptRecord) (tree : Json) :
    Patch.applyAll (patches h r) tree =
      alterAt (stored h r) (StatePath.nodeHistory r.fileKey r.nodeId) tree := by
  have hset : alterAt (fun _ => r.toJson) (StatePath.attempt r.fileKey r.nodeId r.id) tree =
      alterAt (alterAt (fun _ => r.toJson) ["attempts", r.id])
        (StatePath.nodeHistory r.fileKey r.nodeId) tree :=
    Json.alterAt_append _ (StatePath.nodeHistory r.fileKey r.nodeId) ["attempts", r.id] tree
  show alterAt (mergeWith (some (counters h r))) (StatePath.nodeHistory r.fileKey r.nodeId)
    (alterAt (fun _ => r.toJson) (StatePath.attempt r.fileKey r.nodeId r.id) tree) = _
  rw [hset, Json.alterAt_alterAt]
  rfl

theorem nodeHistory?_eq (s : ProofState) (fileKey nodeId : String) :
    s.nodeHistory? fileKey nodeId =
      ((s.history.get? fileKey).getD Table.empty).get? nodeId := by
  show (s.history.get? fileKey).bind (fun t => t.get? nodeId) = _
  cases s.history.get? fileKey <;> rfl

/-- A tree with one more attempt holds the history with one more attempt. The history must be
    stored as an object if there is one: one that is stored as an array is replaced. -/
theorem holds_appended {tree : Json} {s : ProofState} (hwf : tree.WellFormed)
    (hs : Holds tree s) {r : AttemptRecord} (hr : r.timestamp.IsReal)
    (hobject : Json.ObjectAt (StatePath.nodeHistory r.fileKey r.nodeId) tree) :
    Holds (Patch.applyAll (patches (s.nodeHistory? r.fileKey r.nodeId) r) tree)
      { s with
        history := s.history.insert r.fileKey
          (((s.history.get? r.fileKey).getD Table.empty).insert r.nodeId
            (appended (s.nodeHistory? r.fileKey r.nodeId) r)) } := by
  rw [applyAll_patches]
  refine hs.alterHistory ?_
  have hfile := hs.history.nested (hwf.getD "history") r.fileKey
  have hfileWf := (hwf.getD "history").getD r.fileKey
  rw [StatePath.nodeHistory, Json.objectAt_cons_cons, Json.objectAt_cons_cons] at hobject
  rw [nodeHistory?_eq]
  generalize (tree.getD "history").getD r.fileKey = v at hfile hfileWf hobject
  generalize (s.history.get? r.fileKey).getD Table.empty = t at hfile
  refine (hfile.alterAt ?_).asTableOf? (by rw [Json.alterAt_cons]; rfl)
  show NodeHistory.ofJson? (stored (t.get? r.nodeId) r (v.getD r.nodeId)) = _
  cases hw : v.get? r.nodeId with
  | none =>
    rw [hfile.get?_eq_none hw, Json.getD, hw]
    exact ofJson?_stored_null hr
  | some w =>
    obtain ⟨prior, hprior, ht⟩ := hfile.read_of_get? hw
    rw [ht, Json.getD, hw]
    exact ofJson?_stored (hobject.eq_object hw) (hfileWf.get? hw) hprior hr

-- ── Patterns ──────────────────────────────────────────────────────────────────

theorem observedPattern_key {s : ProofState} (hs : s.KeyedPatterns) (r : AttemptRecord)
    (signature : Option String) (now : Instant) :
    (observedPattern s r signature now).key = patternKey r.countedCategory r.tacticKey := by
  have hknown : ((s.patterns.get? (patternKey r.countedCategory r.tacticKey)).getD
      (PatternEntry.unused r.countedCategory r.tacticKey now)).key =
        patternKey r.countedCategory r.tacticKey := by
    cases hp : s.patterns.get? (patternKey r.countedCategory r.tacticKey) with
    | none => rfl
    | some p => exact hs _ p hp
  unfold observedPattern
  dsimp only
  split <;> exact hknown

theorem ofJson?_observedPattern (s : ProofState) (r : AttemptRecord)
    (signature : Option String) {now : Instant} (hnow : now.IsReal) :
    PatternEntry.ofJson? (observedPattern s r signature now).toJson =
      some (observedPattern s r signature now) := by
  have hlast : (observedPattern s r signature now).lastUpdated = now := by
    unfold observedPattern
    dsimp only
    split <;> rfl
  have hscore : ∃ successes total,
      (observedPattern s r signature now).score = successRate successes total := by
    unfold observedPattern
    dsimp only
    split <;> exact ⟨_, _, rfl⟩
  obtain ⟨successes, total, hscore⟩ := hscore
  refine PatternEntry.ofJson?_toJson (hlast.symm ▸ hnow) ?_
  rw [hscore]
  exact isFinite_successRate successes total

theorem wellFormed_counters (h : Option NodeHistory) (r : AttemptRecord) :
    (counters h r).WellFormed := by
  refine .ofPresent ?_
  cases r.result.isSuccess <;> simp

theorem wellFormed_record (s : ProofState) (a : AttemptInput) (now : Instant) :
    ∀ p ∈ record s a now, p.WellFormed := by
  unfold record
  split
  · exact List.forall_mem_nil _
  · simp [patches, patternPatch, Patch.wellFormed_set, Patch.wellFormed_merge,
      wellFormed_counters]

/-- After the patches of an attempt the tree holds the state with the attempt recorded. -/
theorem holds_recorded {tree : Json} {s : ProofState} (hwf : tree.WellFormed)
    (hs : Holds tree s) (hkeyed : s.KeyedPatterns) {a : AttemptInput} {now : Instant}
    (hnow : now.IsReal)
    (hobject : a.resolvedKey?.isSome = true →
      Json.ObjectAt (StatePath.nodeHistory a.fileKey a.nodeId) tree) :
    Holds (Patch.applyAll (record s a now) tree) (recorded s a now) ∧
      (recorded s a now).KeyedPatterns := by
  unfold record recorded
  cases hkey : a.resolvedKey? with
  | none => exact ⟨hs, hkeyed⟩
  | some tacticKey =>
    dsimp only
    generalize hr : nextRecord (s.nodeHistory? a.fileKey a.nodeId) a tacticKey now = r
    have hfile : r.fileKey = a.fileKey := by rw [← hr]; rfl
    have hnode : r.nodeId = a.nodeId := by rw [← hr]; rfl
    have htime : r.timestamp = now := by rw [← hr]; rfl
    rw [hkey] at hobject
    rw [← hfile, ← hnode] at hobject ⊢
    have happended := holds_appended hwf hs (htime.symm ▸ hnow) (hobject rfl)
    have hpatternKey := observedPattern_key hkeyed r (signatureOf s a) now
    rw [Patch.applyAll_append]
    refine ⟨?_, ?_⟩
    · rw [← hpatternKey]
      exact happended.alterPattern (ofJson?_observedPattern s r _ hnow)
    · intro key p hp
      by_cases hsame : patternKey r.countedCategory r.tacticKey = key
      · subst hsame
        rw [Table.get?_insert_self] at hp
        cases hp
        exact hpatternKey
      · rw [Table.get?_insert_ne _ hsame] at hp
        exact hkeyed key p hp

end Ledger

end ProofLedger
