import Mathlib.Order.Basic
import ProofLedger.Proofs.State.Pruning

/-!
# Generations of slots

The time of a new slot is taken from the slots that are cached, and a slot may have been dropped
from the cache long ago. It is nevertheless later than every slot that was ever written: a slot
is only dropped when a newer one is written, so none of the earlier ones is newer than the newest
that is cached. Clocks may stand still or go backwards.
-/

namespace ProofLedger

namespace Recommendation

variable {settings : RankingSettings} {s : ProofState} {fileKey nodeId : String}
  {now : Instant} {r : Refresh}

-- ── The next generation ───────────────────────────────────────────────────────

/-- The newest generation is not before that of any slot. -/
theorem le_newestGeneration? {slot : SuggestionSlot} (h : slot ∈ s.suggestions.values) :
    ∃ newest, newestGeneration? s = some newest ∧ slot.generatedAt ≤ newest := by
  unfold newestGeneration?
  generalize s.suggestions.values = slots at h
  induction slots using List.reverseRecOn with
  | nil => cases h
  | append_singleton slots last ih =>
    rw [List.foldl_append, List.foldl_cons, List.foldl_nil]
    rcases List.mem_append.mp h with h | h
    · obtain ⟨newest, hnewest, hle⟩ := ih h
      rw [hnewest]
      dsimp only
      split
      · next hlt => exact ⟨_, rfl, hle.trans (le_of_lt hlt)⟩
      · exact ⟨_, rfl, hle⟩
    · obtain rfl := List.mem_singleton.mp h
      split
      · exact ⟨_, rfl, le_refl _⟩
      · split
        · exact ⟨_, rfl, le_refl _⟩
        · next hnot => exact ⟨_, rfl, not_lt.mp hnot⟩

/-- The next generation comes after the newest one that is cached. -/
theorem nextGeneration?_of_newest {newest : Instant} (h : newestGeneration? s = some newest)
    (now : Instant) :
    nextGeneration? s now = if newest < now then some now else newest.addMillis? 1 := by
  rw [nextGeneration?, h]

/-- There is a next generation as long as no cached one is at the end of time. -/
theorem isSome_nextGeneration? (h : ∀ slot ∈ s.suggestions.values,
    (slot.generatedAt.addMillis? 1).isSome = true) (now : Instant) :
    (nextGeneration? s now).isSome = true := by
  cases hnewest : newestGeneration? s with
  | none => rw [nextGeneration?, hnewest, Option.isSome_some]
  | some newest =>
    obtain ⟨slot, hslot, rfl⟩ := mem_of_newestGeneration? hnewest
    rw [nextGeneration?_of_newest hnewest]
    split
    · rfl
    · exact h slot hslot

/-- The next generation is not before now, if the cached ones are real. -/
theorem le_nextGeneration? (h : ∀ slot ∈ s.suggestions.values, slot.generatedAt.IsReal)
    {now t : Instant} (ht : nextGeneration? s now = some t) : now ≤ t := by
  cases hnewest : newestGeneration? s with
  | none =>
    rw [nextGeneration?, hnewest, Option.some.injEq] at ht
    exact le_of_eq ht
  | some newest =>
    obtain ⟨slot, hslot, rfl⟩ := mem_of_newestGeneration? hnewest
    rw [nextGeneration?_of_newest hnewest] at ht
    split at ht
    · exact le_of_eq (Option.some.inj ht)
    · next hnot =>
      exact (not_lt.mp hnot).trans (le_of_lt ((h slot hslot).lt_addMillis? Int.one_pos ht))

/-- The next generation is later than the cached ones, if these are real. -/
theorem lt_nextGeneration? (h : ∀ slot ∈ s.suggestions.values, slot.generatedAt.IsReal)
    {now t : Instant} (ht : nextGeneration? s now = some t) {slot : SuggestionSlot}
    (hslot : slot ∈ s.suggestions.values) : slot.generatedAt < t := by
  obtain ⟨newest, hnewest, hle⟩ := le_newestGeneration? hslot
  rw [nextGeneration?_of_newest hnewest] at ht
  refine lt_of_le_of_lt hle ?_
  split at ht
  · next hlt => exact lt_of_lt_of_eq hlt (Option.some.inj ht)
  · obtain ⟨last, hlast, rfl⟩ := mem_of_newestGeneration? hnewest
    exact (h last hlast).lt_addMillis? Int.one_pos ht

/-- All entries of a slot have the time of the slot. -/
theorem generatedAt_entries (h : refreshSlot settings s fileKey nodeId now = some r) :
    ∀ e ∈ r.slot.entries, e.generatedAt = r.slot.generatedAt := by
  obtain ⟨_, _, -, hslot, -⟩ := refreshSlot_eq_some h
  rw [hslot]
  exact fun e he => (mem_rankCandidates he).1

end Recommendation

-- ── Trees with a readable cache ───────────────────────────────────────────────

/-- A well-formed tree whose cache is missing, `null` or readable. Nothing is asked of its other
    sections: what cannot be read there counts as empty. -/
structure HasCache (tree : Json) : Prop where
  wellFormed : tree.WellFormed
  readable : SectionReadable tree "suggestions" SuggestionSlot.ofJson?

/-- The cached slots of a tree. -/
def cacheOf (tree : Json) : Table SuggestionSlot := (ProofState.ofJson tree).suggestions

/-- A tree from which slots are removed holds the cache without them. -/
theorem holdsTable_removeSlots {tree : Json} {t : Table SuggestionSlot}
    (h : Json.HoldsTable SuggestionSlot.ofJson? (tree.getD "suggestions") t) (keys : List String) :
    Json.HoldsTable SuggestionSlot.ofJson?
      ((Patch.applyAll (keys.map fun k => .unset (StatePath.suggestionSlot k)) tree).getD
        "suggestions") (t.eraseAll keys) := by
  induction keys generalizing tree t with
  | nil => exact h
  | cons k rest ih =>
    refine ih ?_
    show Json.HoldsTable _ ((Json.removeAt ["suggestions", k] tree).getD "suggestions") _
    rw [Json.getD_removeAt_self]
    exact h.removeAt k

namespace HasCache

variable {tree : Json} (h : HasCache tree)

include h

theorem holdsTable :
    Json.HoldsTable SuggestionSlot.ofJson? (tree.getD "suggestions") (cacheOf tree) :=
  h.readable.holdsTable h.wellFormed

theorem isReal {slot : SuggestionSlot} (hslot : slot ∈ (cacheOf tree).values) :
    slot.generatedAt.IsReal := h.holdsTable.isReal_generatedAt hslot

omit h in
/-- The scores of what is read from a document are numbers, whether it can be read or not. -/
theorem isFinite_score (hwf : tree.WellFormed) {p : PatternEntry}
    (hp : p ∈ (ProofState.ofJson tree).patterns.values) : p.score.isFinite = true := by
  change p ∈ (ProofState.readSection tree "patterns" PatternEntry.ofJson?).values at hp
  have hsection := readSection_eq tree "patterns" PatternEntry.ofJson?
  cases hread : Json.asTableOf? PatternEntry.ofJson? (tree.getD "patterns") with
  | none =>
    rw [hsection, hread] at hp
    cases hp
  | some t =>
    have hholds := SectionReadable.holdsTable hwf (Or.inr (Option.isSome_of_eq_some hread))
    exact hholds.isFinite_score (hwf.getD _) hp

/-- A refresh rewrites the cache. -/
theorem refreshSlot {settings : RankingSettings} {fileKey nodeId : String} {now : Instant}
    {r : Recommendation.Refresh}
    (hr : Recommendation.refreshSlot settings (.ofJson tree) fileKey nodeId now = some r)
    (hnow : now.IsReal) :
    HasCache (Patch.applyAll r.patches tree) ∧
      cacheOf (Patch.applyAll r.patches tree) =
        Recommendation.rewritten settings (.ofJson tree) (SuggestionSlot.keyOf fileKey nodeId)
          r.slot := by
  have htime := Recommendation.isReal_nextGeneration? (fun slot hslot => h.isReal hslot) hnow
  have hslot := Recommendation.ofJson?_refreshed hr htime fun p hp => isFinite_score h.wellFormed hp
  have hset : Json.HoldsTable SuggestionSlot.ofJson?
      ((Json.alterAt (fun _ => r.slot.toJson)
        (StatePath.suggestionSlot (SuggestionSlot.keyOf fileKey nodeId)) tree).getD "suggestions")
      ((cacheOf tree).insert (SuggestionSlot.keyOf fileKey nodeId) r.slot) := by
    rw [StatePath.suggestionSlot, Json.getD_alterAt_self]
    exact h.holdsTable.alterAt hslot
  have hwritten := holdsTable_removeSlots hset (Recommendation.staleKeys settings (.ofJson tree)
    (SuggestionSlot.keyOf fileKey nodeId) r.slot.generatedAt)
  rw [Table.eraseAll_insert _ (Recommendation.not_mem_staleKeys settings _ _ _)] at hwritten
  have hwf : (Patch.applyAll r.patches tree).WellFormed := by
    rw [← Recommendation.suggest_eq hr]
    exact Patch.wellFormed_applyAll (Recommendation.wellFormed_suggest settings _ _ _ _)
      h.wellFormed
  rw [Recommendation.patches_refreshSlot hr] at hwf ⊢
  obtain ⟨hreadable, hcache⟩ := sectionReadable_of_holdsTable hwritten
  exact ⟨⟨hwf, hreadable⟩, hcache⟩

end HasCache

-- ── Runs ──────────────────────────────────────────────────────────────────────

namespace Operation

/-- The slot that an operation writes. -/
def slot? (settings : RankingSettings) (s : ProofState) : Operation → Option SuggestionSlot
  | suggest fileKey nodeId now =>
    (Recommendation.refreshSlot settings s fileKey nodeId now).map (·.slot)
  | _ => none

/-- The slots that are written in a run, in order. -/
def slots (settings : RankingSettings) (tree : Json) : List Operation → List SuggestionSlot
  | [] => []
  | op :: rest =>
    (op.slot? settings (.ofJson tree)).toList ++ slots settings (op.run settings tree) rest

variable {settings : RankingSettings} {tree : Json}

/-- A further operation writes the slot it generates, if any, after the others. -/
theorem slots_concat (settings : RankingSettings) (tree : Json) (prior : List Operation)
    (op : Operation) :
    slots settings tree (prior ++ [op]) = slots settings tree prior ++
      (op.slot? settings (.ofJson (runAll settings tree prior))).toList := by
  induction prior generalizing tree with
  | nil => exact List.append_nil _
  | cons first rest ih =>
    rw [List.cons_append, slots, slots, ih, List.append_assoc]
    rfl

/-- An operation that writes a slot is a refresh. -/
theorem slot?_eq_some {s : ProofState} {op : Operation} {slot : SuggestionSlot}
    (h : op.slot? settings s = some slot) : ∃ fileKey nodeId now r,
      op = suggest fileKey nodeId now ∧
        Recommendation.refreshSlot settings s fileKey nodeId now = some r ∧ r.slot = slot := by
  cases op with
  | suggest fileKey nodeId now =>
    obtain ⟨r, hr, hslot⟩ := Option.map_eq_some_iff.mp h
    exact ⟨fileKey, nodeId, now, r, rfl, hr, hslot⟩
  | _ => cases h

-- A refresh that writes a slot.
section Refresh

variable {fileKey nodeId : String} {now : Instant} {slot : SuggestionSlot}

/-- A slot names the obligation it was written for. -/
theorem obligation_of_slot? {s : ProofState}
    (h : (suggest fileKey nodeId now).slot? settings s = some slot) :
    slot.fileKey = fileKey ∧ slot.nodeId = nodeId := by
  obtain ⟨r, hr, rfl⟩ := Option.map_eq_some_iff.mp h
  obtain ⟨_, _, -, hfields, -⟩ := Recommendation.refreshSlot_eq_some hr
  rw [hfields]
  exact ⟨rfl, rfl⟩

/-- The cache after a slot is written. -/
theorem cacheOf_run_suggest (h : HasCache tree) (hreal : now.IsReal)
    (hslot : (suggest fileKey nodeId now).slot? settings (.ofJson tree) = some slot) :
    HasCache ((suggest fileKey nodeId now).run settings tree) ∧
      cacheOf ((suggest fileKey nodeId now).run settings tree) =
        Recommendation.rewritten settings (.ofJson tree) (SuggestionSlot.keyOf fileKey nodeId)
          slot := by
  obtain ⟨r, hr, rfl⟩ := Option.map_eq_some_iff.mp hslot
  have hrun : (suggest fileKey nodeId now).run settings tree = Patch.applyAll r.patches tree := by
    show Patch.applyAll (Recommendation.suggest settings _ _ _ _) tree = _
    rw [Recommendation.suggest_eq hr]
  rw [hrun]
  exact h.refreshSlot hr hreal

/-- A slot that was written is read. -/
theorem slot?_run_suggest (h : HasCache tree) (hreal : now.IsReal)
    (hslot : (suggest fileKey nodeId now).slot? settings (.ofJson tree) = some slot) :
    (ProofState.ofJson ((suggest fileKey nodeId now).run settings tree)).slot? fileKey nodeId =
      some slot := by
  show (cacheOf _).get? (SuggestionSlot.keyOf fileKey nodeId) = some slot
  rw [(cacheOf_run_suggest h hreal hslot).2]
  exact Table.get?_insert_self _ _ _

end Refresh

/-- An operation that writes no slot leaves the cache as it is. -/
theorem get?_run_of_slot?_eq_none {op : Operation}
    (h : op.slot? settings (.ofJson tree) = none) :
    (op.run settings tree).get? "suggestions" = tree.get? "suggestions" := by
  cases op with
  | suggest fileKey nodeId now =>
    have hpatches : (suggest fileKey nodeId now).patches settings (.ofJson tree) = [] := by
      show Recommendation.suggest settings _ _ _ _ = []
      rw [Recommendation.suggest, Option.map_eq_none_iff.mp h]
      rfl
    rw [run, hpatches]
    rfl
  | _ => exact get?_applyAll_ne (by simp [writes]) settings _ tree

/-- What a run keeps: the cache is readable, and no slot that was written is newer than all that
    are cached. -/
structure Covered (tree : Json) (slots : List SuggestionSlot) : Prop where
  cache : HasCache tree
  newest : ∀ old ∈ slots, ∃ cached ∈ (cacheOf tree).values, old.generatedAt ≤ cached.generatedAt

variable {written : List SuggestionSlot} {op : Operation}

theorem Covered.of_slot?_eq_none (h : Covered tree written)
    (hop : op.slot? settings (.ofJson tree) = none) : Covered (op.run settings tree) written := by
  have hget := get?_run_of_slot?_eq_none hop
  have hgetD : (op.run settings tree).getD "suggestions" = tree.getD "suggestions" :=
    congrArg (Option.getD · Json.null) hget
  have hcache : cacheOf (op.run settings tree) = cacheOf tree := by
    show ProofState.readSection _ _ _ = ProofState.readSection _ _ _
    rw [readSection_eq, readSection_eq, hgetD]
  constructor
  · constructor
    · exact Patch.wellFormed_applyAll (wellFormed_patches settings _ op) h.cache.wellFormed
    · unfold SectionReadable
      rw [hgetD]
      exact h.cache.readable
  · rw [hcache]
    exact h.newest

/-- A slot that is written, by the tree that it is written to and what was written before. -/
structure Newest (settings : RankingSettings) (tree : Json) (written : List SuggestionSlot)
    (op : Operation) (slot : SuggestionSlot) : Prop where
  /-- it is not before the clock, -/
  notBefore : op.time ≤ slot.generatedAt
  /-- it is later than all slots that are cached, -/
  afterCached : ∀ old ∈ (cacheOf tree).values, old.generatedAt < slot.generatedAt
  /-- and later than all that were written before, cached or not -/
  afterWritten : ∀ old ∈ written, old.generatedAt < slot.generatedAt
  /-- its suggestions are of its time -/
  entries : ∀ e ∈ slot.entries, e.generatedAt = slot.generatedAt
  /-- and it is what is read afterwards -/
  stored : (cacheOf (op.run settings tree)).get? (SuggestionSlot.keyOf slot.fileKey slot.nodeId) =
    some slot

/-- A slot is later than whatever is covered, and covers it together with itself. -/
theorem Covered.of_slot? (h : Covered tree written) {slot : SuggestionSlot}
    (hslot : op.slot? settings (.ofJson tree) = some slot) (hreal : op.time.IsReal) :
    Newest settings tree written op slot ∧
      Covered (op.run settings tree) (written ++ [slot]) := by
  obtain ⟨fileKey, nodeId, now, r, rfl, hr, rfl⟩ := slot?_eq_some hslot
  have hcached : ∀ slot ∈ (cacheOf tree).values, slot.generatedAt.IsReal :=
    fun slot hslot => h.cache.isReal hslot
  have htime : Recommendation.nextGeneration? (.ofJson tree) now = some r.slot.generatedAt :=
    Recommendation.generatedAt_refreshSlot hr
  have hafter : ∀ old ∈ (cacheOf tree).values, old.generatedAt < r.slot.generatedAt :=
    fun old hold => Recommendation.lt_nextGeneration? hcached htime hold
  have hwritten : ∀ old ∈ written, old.generatedAt < r.slot.generatedAt := by
    intro old hold
    obtain ⟨cached, hcached, hle⟩ := h.newest old hold
    exact lt_of_le_of_lt hle (hafter cached hcached)
  obtain ⟨hfile, hnode⟩ := obligation_of_slot? hslot
  have hcache := (cacheOf_run_suggest h.cache hreal hslot).1
  have hstored := slot?_run_suggest h.cache hreal hslot
  constructor
  · refine ⟨?_, hafter, hwritten, Recommendation.generatedAt_entries hr, ?_⟩
    · exact Recommendation.le_nextGeneration? hcached htime
    · rw [hfile, hnode]
      exact hstored
  · refine ⟨hcache, fun old hold => ⟨r.slot, Table.mem_values.mpr ⟨_, hstored⟩, ?_⟩⟩
    rcases List.mem_append.mp hold with hold | hold
    · exact le_of_lt (hwritten old hold)
    · rw [List.mem_singleton.mp hold]

/-- What is written in a run stays covered. -/
theorem covered_runAll (h : HasCache tree) {ops : List Operation} (hreal : AllReal ops) :
    Covered (runAll settings tree ops) (slots settings tree ops) := by
  induction ops using List.reverseRecOn with
  | nil => exact ⟨h, List.forall_mem_nil _⟩
  | append_singleton prior op ih =>
    have hcovered := ih hreal.of_append
    have hop : op.time.IsReal := hreal op (List.mem_append_right prior List.mem_cons_self)
    rw [runAll_concat, slots_concat]
    cases hslot : op.slot? settings (.ofJson (runAll settings tree prior)) with
    | none =>
      rw [Option.toList_none, List.append_nil]
      exact hcovered.of_slot?_eq_none hslot
    | some slot => exact (hcovered.of_slot? hslot hop).2

/-- Whatever the clock shows, every slot of a run is later than all that are cached and all that
    were written before it in the run. -/
theorem newest_of_written (h : HasCache tree) {prior : List Operation} {op : Operation}
    (hreal : AllReal (prior ++ [op])) {slot : SuggestionSlot}
    (hslot : op.slot? settings (.ofJson (runAll settings tree prior)) = some slot) :
    Newest settings (runAll settings tree prior) (slots settings tree prior) op slot := by
  have hop : op.time.IsReal := hreal op (List.mem_append_right prior List.mem_cons_self)
  exact ((covered_runAll h hreal.of_append).of_slot? hslot hop).1

/-- Suggestions for the obligation of the failed attempt. -/
def suggestAt (second : Int) : Operation := .suggest "Main.lean" "n" ⟨second, 0⟩

/-- A refresh leaves what is known of an obligation as it is, so it can be repeated as long as time
    goes on. -/
theorem isSome_slot?_suggestAt {t : Table SuggestionSlot} {second : Int}
    (htime : (Recommendation.nextGeneration? { failedAttempt.change {} {} with suggestions := t }
      ⟨second, 0⟩).isSome = true) :
    ((suggestAt second).slot? {} { failedAttempt.change {} {} with suggestions := t }).isSome =
      true := by
  have htarget : (Recommendation.target?
      { failedAttempt.change {} {} with suggestions := t } "Main.lean" "n").isSome = true := by
    rfl
  rw [suggestAt, slot?, Option.isSome_map, Recommendation.isSome_refreshSlot, htime, htarget]
  rfl

/-- The clock goes back between two refreshes. -/
theorem newest_of_written_suggestAt : ∃ slot,
    (suggestAt 1709290000).slot? {}
      (.ofJson (runAll {} Json.emptyObject [failedAttempt, suggestAt 1709294500])) = some slot ∧
    Newest {} (runAll {} Json.emptyObject [failedAttempt, suggestAt 1709294500])
      (slots {} Json.emptyObject [failedAttempt, suggestAt 1709294500]) (suggestAt 1709290000)
      slot := by
  have hreal : AllReal ([failedAttempt, suggestAt 1709294500] ++ [suggestAt 1709290000]) := by
    decide
  have hstate := @ofJson_runAll {} _ (Or.inl rfl) _ hreal.of_append
  have hsome : ((suggestAt 1709290000).slot? {}
      (.ofJson (runAll {} Json.emptyObject [failedAttempt, suggestAt 1709294500]))).isSome =
        true := by
    rw [hstate]
    show (slot? {} (Recommendation.refreshed {} (failedAttempt.change {} {}) "Main.lean" "n" _)
      _).isSome = true
    unfold Recommendation.refreshed
    split
    · exact isSome_slot?_suggestAt rfl
    · next r hr =>
      have htime : r.slot.generatedAt = ⟨1709294500, 0⟩ :=
        (Option.some.inj (Recommendation.generatedAt_refreshSlot hr)).symm
      refine isSome_slot?_suggestAt (Recommendation.isSome_nextGeneration? (fun slot hslot => ?_) _)
      rcases Recommendation.eq_or_mem_of_mem_rewritten hslot with rfl | hcached
      · rw [htime]
        decide
      · cases hcached
  obtain ⟨slot, hslot⟩ := Option.isSome_iff_exists.mp hsome
  have hcache : HasCache Json.emptyObject :=
    ⟨.object Keyed.sorted_nil (List.forall_mem_nil _), Or.inl rfl⟩
  exact ⟨slot, hslot, newest_of_written hcache hreal hslot⟩

end Operation

end ProofLedger
