import ProofLedger.Proofs.State.Codec
import ProofLedger.Proofs.State.Sections

/-!
# Refreshing the cache

A refresh writes one slot and removes the stale ones, which never include the slot itself. What
it writes is read back: the scores of its suggestions are numbers, and its time, right after the
newest slot or now, is as real as those.
-/

namespace ProofLedger

-- ── Removing many keys ────────────────────────────────────────────────────────

/-- A table without some keys. -/
def Table.eraseAll {α : Type} (t : Table α) (keys : List String) : Table α :=
  keys.foldl Table.erase t

theorem Table.get?_eraseAll {α : Type} (t : Table α) (keys : List String) (key : String) :
    (t.eraseAll keys).get? key = if key ∈ keys then none else t.get? key := by
  induction keys generalizing t with
  | nil => rfl
  | cons k rest ih =>
    show ((t.erase k).eraseAll rest).get? key = _
    rw [ih]
    by_cases hrest : key ∈ rest
    · rw [if_pos hrest, if_pos (List.mem_cons_of_mem k hrest)]
    · rw [if_neg hrest]
      by_cases hk : k = key
      · subst hk
        rw [if_pos List.mem_cons_self, Table.get?_erase_self]
      · rw [if_neg (List.not_mem_cons_of_ne_of_not_mem (Ne.symm hk) hrest),
          Table.get?_erase_ne t hk]

theorem Table.eraseAll_insert {α : Type} (t : Table α) {keys : List String} {key : String}
    (h : key ∉ keys) (value : α) :
    (t.insert key value).eraseAll keys = (t.eraseAll keys).insert key value := by
  refine Table.ext_get? fun other => ?_
  rw [Table.get?_eraseAll]
  by_cases hk : key = other
  · subst hk
    rw [if_neg h, Table.get?_insert_self, Table.get?_insert_self]
  · rw [Table.get?_insert_ne _ hk, Table.get?_insert_ne _ hk, Table.get?_eraseAll]

theorem Holds.removeSlots {tree : Json} {s : ProofState} (h : Holds tree s)
    (keys : List String) :
    Holds (Patch.applyAll (keys.map fun k => .unset (StatePath.suggestionSlot k)) tree)
      { s with suggestions := s.suggestions.eraseAll keys } := by
  induction keys generalizing tree s with
  | nil => exact h
  | cons k rest ih => exact ih (h.removeSlot k)

namespace Recommendation

-- ── Stale keys ────────────────────────────────────────────────────────────────

/-- The slot that is written is not stale. -/
theorem not_mem_staleKeys (settings : RankingSettings) (s : ProofState) (current : String)
    (now : Instant) : current ∉ staleKeys settings s current now := by
  intro h
  obtain ⟨e, he, hkey⟩ := List.mem_map.mp h
  have hother : e ∈ s.suggestions.entries.filter fun e => e.1 != current := by
    rcases List.mem_append.mp he with he | he
    · exact (List.mem_filter.mp he).1
    · exact (List.mem_filter.mp (List.mem_mergeSort.mp (List.mem_of_mem_take he))).1
  have hne := (List.mem_filter.mp hother).2
  simp [hkey] at hne

-- ── Time ──────────────────────────────────────────────────────────────────────

/-- What is folded from items, each of which is passed over or taken, is that of an item. -/
private theorem exists_mem_of_foldl {α β : Type} {step : Option β → α → Option β}
    {value : α → β} (hstep : ∀ sofar x, step sofar x = sofar ∨ step sofar x = some (value x))
    {items : List α} {y : β} (h : items.foldl step none = some y) : ∃ x ∈ items, value x = y := by
  induction items using List.reverseRecOn with
  | nil => cases h
  | append_singleton items x ih =>
    rw [List.foldl_append, List.foldl_cons, List.foldl_nil] at h
    rcases hstep (items.foldl step none) x with hpassed | htaken
    · obtain ⟨x', hx', hvalue⟩ := ih (hpassed.symm.trans h)
      exact ⟨x', List.mem_append_left _ hx', hvalue⟩
    · exact ⟨x, List.mem_append_right _ List.mem_cons_self, Option.some.inj (htaken.symm.trans h)⟩

/-- The latest time is that of a slot. -/
theorem mem_of_newestGeneration? {s : ProofState} {t : Instant}
    (h : newestGeneration? s = some t) : ∃ slot ∈ s.suggestions.values, slot.generatedAt = t := by
  unfold newestGeneration? at h
  refine exists_mem_of_foldl (fun newest slot => ?_) h
  cases newest with
  | none => exact Or.inr rfl
  | some newest =>
    dsimp only
    split
    · exact Or.inr rfl
    · exact Or.inl rfl

/-- The next generation is real if the clock and the cached ones are. -/
theorem isReal_nextGeneration? {s : ProofState} {now : Instant}
    (h : ∀ slot ∈ s.suggestions.values, slot.generatedAt.IsReal) (hnow : now.IsReal) :
    ∀ t ∈ nextGeneration? s now, t.IsReal := by
  intro t ht
  unfold nextGeneration? at ht
  split at ht
  · next newest hnewest =>
    obtain ⟨slot, hslot, rfl⟩ := mem_of_newestGeneration? hnewest
    split at ht
    · cases ht
      exact hnow
    · exact (h slot hslot).addMillis? ht
  · cases ht
    exact hnow

-- ── Slots ─────────────────────────────────────────────────────────────────────

/-- A refreshed slot in terms of what it is made of. -/
theorem refreshSlot_eq_some {settings : RankingSettings} {s : ProofState}
    {fileKey nodeId : String} {now : Instant} {r : Refresh}
    (h : refreshSlot settings s fileKey nodeId now = some r) :
    ∃ target t, nextGeneration? s now = some t ∧
      r.slot = ⟨fileKey, nodeId,
        rankCandidates settings target t (candidates s fileKey nodeId), t⟩ ∧
      r.patches = .set (StatePath.suggestionSlot (SuggestionSlot.keyOf fileKey nodeId))
          r.slot.toJson ::
        (staleKeys settings s (SuggestionSlot.keyOf fileKey nodeId) t).map
          fun k => .unset (StatePath.suggestionSlot k) := by
  simp only [refreshSlot, Option.bind_eq_bind, Option.bind_eq_some_iff, Option.pure_def] at h
  obtain ⟨t, ht, entries, hentries, h⟩ := h
  obtain ⟨target, -, rfl⟩ := Option.map_eq_some_iff.mp hentries
  cases h
  exact ⟨target, t, ht, rfl, rfl⟩

/-- The time of a refreshed slot is the next generation. -/
theorem generatedAt_refreshSlot {settings : RankingSettings} {s : ProofState}
    {fileKey nodeId : String} {now : Instant} {r : Refresh}
    (h : refreshSlot settings s fileKey nodeId now = some r) :
    nextGeneration? s now = some r.slot.generatedAt := by
  obtain ⟨_, t, htime, hslot, -⟩ := refreshSlot_eq_some h
  rw [htime, hslot]

/-- The patches of suggestions are those of the refresh. -/
theorem suggest_eq {settings : RankingSettings} {s : ProofState} {fileKey nodeId : String}
    {now : Instant} {r : Refresh} (h : refreshSlot settings s fileKey nodeId now = some r) :
    suggest settings s fileKey nodeId now = r.patches := by
  rw [suggest, h]
  rfl

/-- A refreshed slot is read back. -/
theorem ofJson?_refreshed {settings : RankingSettings} {s : ProofState}
    {fileKey nodeId : String} {now : Instant} {r : Refresh}
    (h : refreshSlot settings s fileKey nodeId now = some r)
    (hreal : ∀ t ∈ nextGeneration? s now, t.IsReal)
    (hscores : ∀ p ∈ s.patterns.values, p.score.isFinite = true) :
    SuggestionSlot.ofJson? r.slot.toJson = some r.slot := by
  obtain ⟨target, t, htime, hslot, -⟩ := refreshSlot_eq_some h
  rw [hslot]
  refine SuggestionSlot.ofJson?_toJson (hreal t htime) fun e he => ?_
  obtain ⟨hgenerated, hscore, c, hc, hrate⟩ := mem_rankCandidates he
  refine SuggestionEntry.ofJson?_toJson (hgenerated ▸ hreal t htime) hscore ?_
  rw [hrate]
  exact Candidate.isFinite_rawScore hscores hc

-- ── The state after a refresh ─────────────────────────────────────────────────

/-- A state with a slot refreshed: the slot is set and the stale ones are gone. -/
def refreshed (settings : RankingSettings) (s : ProofState) (fileKey nodeId : String)
    (now : Instant) : ProofState :=
  match refreshSlot settings s fileKey nodeId now with
  | none => s
  | some r =>
    let key := SuggestionSlot.keyOf fileKey nodeId
    let stale := staleKeys settings s key r.slot.generatedAt
    { s with suggestions := (s.suggestions.eraseAll stale).insert key r.slot }

theorem wellFormed_suggest (settings : RankingSettings) (s : ProofState)
    (fileKey nodeId : String) (now : Instant) :
    ∀ p ∈ suggest settings s fileKey nodeId now, p.WellFormed := by
  unfold suggest
  cases hr : refreshSlot settings s fileKey nodeId now with
  | none => exact List.forall_mem_nil _
  | some r =>
    obtain ⟨_, _, -, -, hpatches⟩ := refreshSlot_eq_some hr
    rw [Option.map_some, Option.getD_some, hpatches]
    simp [Patch.wellFormed_set, Patch.wellFormed_unset]

/-- After the patches of a refresh the tree holds the state with the slot refreshed. -/
theorem holds_refreshed {tree : Json} {s : ProofState} (hwf : tree.WellFormed)
    (hs : Holds tree s) (settings : RankingSettings) (fileKey nodeId : String) {now : Instant}
    (hreal : ∀ t ∈ nextGeneration? s now, t.IsReal) :
    Holds (Patch.applyAll (suggest settings s fileKey nodeId now) tree)
      (refreshed settings s fileKey nodeId now) := by
  unfold suggest refreshed
  cases hr : refreshSlot settings s fileKey nodeId now with
  | none => exact hs
  | some r =>
    obtain ⟨_, t, -, hslot, hpatches⟩ := refreshSlot_eq_some hr
    have hread := ofJson?_refreshed hr hreal fun p hp => hs.isFinite_score hwf hp
    have htime : r.slot.generatedAt = t := by rw [hslot]
    have hset : Holds (Json.alterAt (fun _ => r.slot.toJson)
        (StatePath.suggestionSlot (SuggestionSlot.keyOf fileKey nodeId)) tree) _ :=
      hs.alterSlot hread
    have hremoved := hset.removeSlots
      (staleKeys settings s (SuggestionSlot.keyOf fileKey nodeId) r.slot.generatedAt)
    rw [Table.eraseAll_insert _ (not_mem_staleKeys settings s _ _)] at hremoved
    rw [Option.map_some, Option.getD_some, hpatches, ← htime]
    exact hremoved

end Recommendation

end ProofLedger
