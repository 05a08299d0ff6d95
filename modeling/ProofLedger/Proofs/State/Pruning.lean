import ProofLedger.Proofs.Instant.Order
import ProofLedger.Proofs.Json.Frame
import ProofLedger.Proofs.State.Cache
import ProofLedger.Proofs.State.Isolation

/-!
# What a refresh drops

A refresh divides the slots of other obligations into those that it drops and those that it
keeps: first what has expired is dropped, and then, from the oldest on, as many of the others as
the capacity leaves no room for. What the cache is afterwards follows from this division
(`Pruned`), whether its slot was cached before or not, and whatever the limits are.
-/

namespace ProofLedger

open Json (alterAt removeAt)

namespace Recommendation

variable {settings : RankingSettings} {s : ProofState} {current : String} {now : Instant}

-- ── Age ───────────────────────────────────────────────────────────────────────

/-- Whether a slot is not after another: by the times at which they were generated, and by their
    keys if these are the same. -/
def NotAfter (a b : String × SuggestionSlot) : Prop :=
  a.2.generatedAt < b.2.generatedAt ∨ (a.2.generatedAt = b.2.generatedAt ∧ a.1 ≤ b.1)

/-- The order of slots by age is transitive. -/
theorem NotAfter.trans {a b c : String × SuggestionSlot} (h : NotAfter a b) (h' : NotAfter b c) :
    NotAfter a c := by
  rcases h with h | ⟨h, hkey⟩
  · rcases h' with h' | ⟨h', -⟩
    · exact Or.inl (lt_trans h h')
    · exact Or.inl (h' ▸ h)
  · rcases h' with h' | ⟨h', hkey'⟩
    · exact Or.inl (h ▸ h')
    · exact Or.inr ⟨h.trans h', String.le_trans hkey hkey'⟩

/-- The order of slots by age is total. -/
theorem NotAfter.total (a b : String × SuggestionSlot) : NotAfter a b ∨ NotAfter b a := by
  rcases lt_trichotomy a.2.generatedAt b.2.generatedAt with h | h | h
  · exact Or.inl (Or.inl h)
  · exact (String.le_total a.1 b.1).imp (fun hkey => Or.inr ⟨h, hkey⟩)
      fun hkey => Or.inr ⟨h.symm, hkey⟩
  · exact Or.inr (Or.inl h)

/-- Slots by age are in this order. -/
theorem pairwise_byAge (slots : List (String × SuggestionSlot)) :
    (byAge slots).Pairwise NotAfter := by
  have hle : ∀ a b : String × SuggestionSlot,
      (decide (a.2.generatedAt < b.2.generatedAt) ||
        (a.2.generatedAt == b.2.generatedAt && !decide (b.1 < a.1))) = true ↔ NotAfter a b := by
    intro a b
    unfold NotAfter
    rw [← String.not_lt]
    simp only [Bool.or_eq_true, Bool.and_eq_true, decide_eq_true_eq, beq_iff_eq,
      Bool.not_eq_true', decide_eq_false_iff_not]
  refine (List.pairwise_mergeSort (fun a b c hab hbc => ?_) (fun a b => ?_) slots).imp
    fun h => (hle _ _).mp h
  · exact (hle a c).mpr (((hle a b).mp hab).trans ((hle b c).mp hbc))
  · rw [Bool.or_eq_true, hle, hle]
    exact NotAfter.total a b

-- ── Dropped and kept ──────────────────────────────────────────────────────────

/-- The slots of other obligations. -/
def others (s : ProofState) (current : String) : List (String × SuggestionSlot) :=
  s.suggestions.entries.filter fun e => e.1 != current

/-- The slots of other obligations that have outlived their time. -/
def expired (settings : RankingSettings) (s : ProofState) (current : String) (now : Instant) :
    List (String × SuggestionSlot) :=
  (others s current).filter fun e => isExpired settings now e.2

/-- The other slots of other obligations, from the oldest on. -/
def alive (settings : RankingSettings) (s : ProofState) (current : String) (now : Instant) :
    List (String × SuggestionSlot) :=
  byAge ((others s current).filter fun e => !isExpired settings now e.2)

/-- How many of them there is no room for, beside the slot that is written. -/
def excess (settings : RankingSettings) (s : ProofState) (current : String) (now : Instant) :
    Nat :=
  (alive settings s current now).length - (settings.cacheMaxEntries - 1)

/-- The slots that are dropped. -/
def dropped (settings : RankingSettings) (s : ProofState) (current : String) (now : Instant) :
    List (String × SuggestionSlot) :=
  expired settings s current now ++
    (alive settings s current now).take (excess settings s current now)

/-- The slots of other obligations that are kept. -/
def kept (settings : RankingSettings) (s : ProofState) (current : String) (now : Instant) :
    List (String × SuggestionSlot) :=
  (alive settings s current now).drop (excess settings s current now)

/-- The keys that are removed are those of the slots that are dropped. -/
theorem staleKeys_eq (settings : RankingSettings) (s : ProofState) (current : String)
    (now : Instant) :
    staleKeys settings s current now = (dropped settings s current now).map (·.1) := by
  unfold staleKeys dropped excess alive byAge
  rw [List.length_mergeSort]
  rfl

/-- The other slots are those under other keys. -/
theorem mem_others {k : String} {slot : SuggestionSlot} :
    (k, slot) ∈ others s current ↔ k ≠ current ∧ s.suggestions.get? k = some slot := by
  rw [others, List.mem_filter, Table.mem_entries, and_comm]
  exact and_congr_left' bne_iff_ne

/-- No two slots have one key. -/
theorem nodup_keys_others (s : ProofState) (current : String) :
    ((others s current).map (·.1)).Nodup :=
  s.suggestions.sorted.nodup.sublist (List.filter_sublist.map _)

/-- Every slot of another obligation is either dropped or kept. -/
theorem dropped_append_kept_perm (settings : RankingSettings) (s : ProofState) (current : String)
    (now : Instant) :
    (dropped settings s current now ++ kept settings s current now).Perm (others s current) := by
  have hparts : dropped settings s current now ++ kept settings s current now =
      expired settings s current now ++ alive settings s current now := by
    rw [dropped, kept, List.append_assoc, List.take_append_drop]
  rw [hparts]
  exact ((List.mergeSort_perm _ _).append_left _).trans (List.filter_append_perm _ _)

/-- No slot of another obligation is both dropped and kept. -/
theorem nodup_keys (settings : RankingSettings) (s : ProofState) (current : String)
    (now : Instant) :
    (((dropped settings s current now).map (·.1)) ++
      (kept settings s current now).map (·.1)).Nodup := by
  rw [← List.map_append]
  exact ((dropped_append_kept_perm settings s current now).map _).nodup_iff.mpr
    (nodup_keys_others s current)

/-- What is kept is not removed. -/
theorem not_mem_staleKeys_of_mem_kept {e : String × SuggestionSlot}
    (h : e ∈ kept settings s current now) : e.1 ∉ staleKeys settings s current now := by
  rw [staleKeys_eq]
  intro hdropped
  exact (List.nodup_append.mp (nodup_keys settings s current now)).2.2 _ hdropped _
    (List.mem_map_of_mem h) rfl

/-- What is kept are the slots of other obligations that are not removed. -/
theorem mem_kept {e : String × SuggestionSlot} :
    e ∈ kept settings s current now ↔
      e ∈ others s current ∧ e.1 ∉ staleKeys settings s current now := by
  have hperm := (dropped_append_kept_perm settings s current now).mem_iff (a := e)
  rw [List.mem_append] at hperm
  constructor
  · exact fun h => ⟨hperm.mp (Or.inr h), not_mem_staleKeys_of_mem_kept h⟩
  · rintro ⟨hother, hstale⟩
    rw [staleKeys_eq] at hstale
    exact (hperm.mpr hother).resolve_left fun h => hstale (List.mem_map_of_mem h)

/-- A slot is dropped with its key. -/
theorem mem_dropped_of_mem_staleKeys {k : String} {slot : SuggestionSlot}
    (h : k ∈ staleKeys settings s current now) (hslot : s.suggestions.get? k = some slot) :
    (k, slot) ∈ dropped settings s current now := by
  have hne : k ≠ current := fun he => not_mem_staleKeys settings s current now (he ▸ h)
  have hother : (k, slot) ∈ others s current := mem_others.mpr ⟨hne, hslot⟩
  rw [← (dropped_append_kept_perm settings s current now).mem_iff, List.mem_append] at hother
  exact hother.resolve_right fun hkept => not_mem_staleKeys_of_mem_kept hkept h

/-- A dropped slot that has not expired is one of the oldest. -/
theorem mem_take_of_mem_dropped {e : String × SuggestionSlot}
    (h : e ∈ dropped settings s current now) (halive : isExpired settings now e.2 = false) :
    e ∈ (alive settings s current now).take (excess settings s current now) := by
  refine (List.mem_append.mp h).resolve_left fun hexpired => ?_
  rw [(List.mem_filter.mp hexpired).2] at halive
  cases halive

/-- As many slots are kept as there is room for. -/
theorem length_kept (settings : RankingSettings) (s : ProofState) (current : String)
    (now : Instant) :
    (kept settings s current now).length =
      min (alive settings s current now).length (settings.cacheMaxEntries - 1) := by
  rw [kept, List.length_drop, excess]
  omega

-- ── The cache afterwards ──────────────────────────────────────────────────────

/-- The cache after a slot is written. -/
def rewritten (settings : RankingSettings) (s : ProofState) (key : String)
    (slot : SuggestionSlot) : Table SuggestionSlot :=
  (s.suggestions.eraseAll (staleKeys settings s key slot.generatedAt)).insert key slot

variable {key : String} {slot : SuggestionSlot}

/-- Under the other keys is what was kept. -/
theorem get?_rewritten_ne {k : String} {other : SuggestionSlot} (h : k ≠ key) :
    (rewritten settings s key slot).get? k = some other ↔
      (k, other) ∈ kept settings s key slot.generatedAt := by
  rw [rewritten, Table.get?_insert_ne _ (Ne.symm h), Table.get?_eraseAll, mem_kept, mem_others]
  by_cases hstale : k ∈ staleKeys settings s key slot.generatedAt
  · simp [hstale]
  · simp [hstale, h]

/-- The slots afterwards are those that were kept and the one that was written. -/
theorem size_rewritten (settings : RankingSettings) (s : ProofState) (key : String)
    (slot : SuggestionSlot) :
    (rewritten settings s key slot).size =
      (kept settings s key slot.generatedAt).length + 1 := by
  have hkept : ((rewritten settings s key slot).erase key).entries.Perm
      (kept settings s key slot.generatedAt) := by
    have hnodup := (List.nodup_append.mp (nodup_keys settings s key slot.generatedAt)).2.1
    refine (List.perm_ext_iff_of_nodup (Table.sorted _).nodup.of_map hnodup.of_map).mpr ?_
    rintro ⟨k, other⟩
    rw [Table.mem_entries]
    by_cases hk : k = key
    · subst hk
      rw [Table.get?_erase_self, mem_kept, mem_others]
      simp
    · rw [Table.get?_erase_ne _ (Ne.symm hk), get?_rewritten_ne hk]
  have hentries := Table.entries_insert_perm
    (s.suggestions.eraseAll (staleKeys settings s key slot.generatedAt)) key slot
  rw [rewritten, Table.erase_insert] at hkept
  rw [Table.size, rewritten, hentries.length_eq, List.length_cons, hkept.length_eq]

/-- Whether a slot is within its time: not before the instant from which on slots are kept, if there
    is one that early. -/
def IsFresh (settings : RankingSettings) (now : Instant) (slot : SuggestionSlot) : Prop :=
  ∀ cutoff ∈ now.subSeconds? settings.cacheTtlSecs, cutoff ≤ slot.generatedAt

/-- A cache after a slot is written, by the cache before and the keys that are dropped. -/
structure Pruned (settings : RankingSettings) (key : String) (slot : SuggestionSlot)
    (before after : Table SuggestionSlot) (removed : List String) : Prop where
  /-- the slot is there -/
  written : after.get? key = some slot
  /-- what is kept is unchanged -/
  unchanged : ∀ k other, k ≠ key → after.get? k = some other → before.get? k = some other
  /-- no key is dropped twice -/
  nodup : removed.Nodup
  /-- the dropped keys are those of the slots that were there and are gone -/
  gone : ∀ k, k ∈ removed ↔ k ≠ key ∧ before.contains k = true ∧ after.contains k = false
  /-- no slot is kept beyond its time -/
  fresh : ∀ k other, k ≠ key → after.get? k = some other →
    IsFresh settings slot.generatedAt other
  /-- there are no more slots than there is room for -/
  bounded : after.size ≤ max 1 settings.cacheMaxEntries
  /-- a slot is dropped within its time only if there is no room for one more, -/
  needed : ∀ k old, k ∈ removed → before.get? k = some old →
    IsFresh settings slot.generatedAt old →
    max 1 settings.cacheMaxEntries < after.size + 1
  /-- and then it is not after any other slot that is kept -/
  oldest : ∀ k old, k ∈ removed → before.get? k = some old →
    IsFresh settings slot.generatedAt old →
    ∀ k' other, k' ≠ key → after.get? k' = some other → NotAfter (k, old) (k', other)

/-- What has not expired is within its time. -/
theorem isExpired_eq_false {slot : SuggestionSlot} :
    isExpired settings now slot = false ↔ IsFresh settings now slot := by
  unfold isExpired IsFresh
  cases now.subSeconds? settings.cacheTtlSecs with
  | none => exact iff_of_true rfl fun cutoff hcutoff => nomatch hcutoff
  | some cutoff =>
    simp only [decide_eq_false_iff_not, not_lt, Option.mem_some_iff, forall_eq']

/-- What is kept has not expired. -/
theorem isExpired_of_mem_kept {e : String × SuggestionSlot}
    (h : e ∈ kept settings s current now) : isExpired settings now e.2 = false := by
  have halive := List.mem_mergeSort.mp (List.mem_of_mem_drop h)
  exact Bool.not_eq_true' _ ▸ (List.mem_filter.mp halive).2

/-- A slot that is dropped within its time is not after any slot that is kept. -/
theorem notAfter_of_mem_kept {e e' : String × SuggestionSlot}
    (h : e ∈ dropped settings s current now) (halive : isExpired settings now e.2 = false)
    (h' : e' ∈ kept settings s current now) : NotAfter e e' := by
  have hsorted := pairwise_byAge ((others s current).filter fun e => !isExpired settings now e.2)
  rw [← List.take_append_drop (excess settings s current now) (byAge _)] at hsorted
  exact (List.pairwise_append.mp hsorted).2.2 e (mem_take_of_mem_dropped h halive) e' h'

/-- Dropping and keeping in this way is pruning. -/
theorem pruned_rewritten (settings : RankingSettings) (s : ProofState) (key : String)
    (slot : SuggestionSlot) :
    Pruned settings key slot s.suggestions (rewritten settings s key slot)
      (staleKeys settings s key slot.generatedAt) where
  written := Table.get?_insert_self _ _ _
  unchanged k other hk hother :=
    (mem_others.mp (mem_kept.mp ((get?_rewritten_ne hk).mp hother)).1).2
  nodup := by
    rw [staleKeys_eq]
    exact (List.nodup_append.mp (nodup_keys settings s key slot.generatedAt)).1
  gone k := by
    have hgone : k ≠ key → k ∉ staleKeys settings s key slot.generatedAt →
        (rewritten settings s key slot).get? k = s.suggestions.get? k := by
      intro hk hstale
      rw [rewritten, Table.get?_insert_ne _ (Ne.symm hk), Table.get?_eraseAll, if_neg hstale]
    constructor
    · intro hstale
      have hk : k ≠ key := fun he => not_mem_staleKeys settings s key _ (he ▸ hstale)
      refine ⟨hk, ?_, ?_⟩
      · rw [staleKeys_eq] at hstale
        obtain ⟨⟨_, old⟩, hold, rfl⟩ := List.mem_map.mp hstale
        have hother := (dropped_append_kept_perm settings s key slot.generatedAt).mem_iff.mp
          (List.mem_append_left _ hold)
        exact Table.contains_iff.mpr ⟨old, (mem_others.mp hother).2⟩
      · rw [Table.contains, rewritten, Table.get?_insert_ne _ (Ne.symm hk),
          Table.get?_eraseAll, if_pos hstale]
        rfl
    · rintro ⟨hk, hbefore, hafter⟩
      by_contra hstale
      rw [Table.contains, hgone hk hstale] at hafter
      rw [Table.contains, hafter] at hbefore
      cases hbefore
  fresh k other hk hother :=
    isExpired_eq_false.mp (isExpired_of_mem_kept ((get?_rewritten_ne hk).mp hother))
  bounded := by
    rw [size_rewritten, length_kept]
    omega
  needed k old hstale hold halive := by
    have hdropped := mem_dropped_of_mem_staleKeys hstale hold
    have htaken := mem_take_of_mem_dropped hdropped (isExpired_eq_false.mpr halive)
    have hexcess : 0 < excess settings s key slot.generatedAt := by
      refine Nat.pos_of_ne_zero fun hzero => ?_
      rw [hzero] at htaken
      cases htaken
    rw [size_rewritten, length_kept]
    unfold excess at hexcess
    omega
  oldest k old hstale hold halive k' other hk' hother :=
    notAfter_of_mem_kept (mem_dropped_of_mem_staleKeys hstale hold)
      (isExpired_eq_false.mpr halive) ((get?_rewritten_ne hk').mp hother)

/-- No slot is cached that was neither written nor cached before. -/
theorem eq_or_mem_of_mem_rewritten {other : SuggestionSlot}
    (h : other ∈ (rewritten settings s key slot).values) :
    other = slot ∨ other ∈ s.suggestions.values := by
  have hpruned := pruned_rewritten settings s key slot
  obtain ⟨k, hk⟩ := Table.mem_values.mp h
  by_cases hkey : k = key
  · rw [hkey, hpruned.written] at hk
    exact Or.inl (Option.some.inj hk).symm
  · exact Or.inr (Table.mem_values.mpr ⟨k, hpruned.unchanged k other hkey hk⟩)

-- ── The tree afterwards ───────────────────────────────────────────────────────

/-- The other sections of a state. -/
def otherSections (s : ProofState) : List (String × Json) :=
  Keyed.ofList [("files", .ofTable FileState.toJson s.files),
    ("history", .ofTable (Json.ofTable NodeHistory.toJson) s.history),
    ("patterns", .ofTable PatternEntry.toJson s.patterns)]

theorem toJson_eq (s : ProofState) :
    s.toJson = .object (Keyed.insert "suggestions"
      (.ofTable SuggestionSlot.toJson s.suggestions) (otherSections s)) := rfl

/-- The cache of a state is what is written under its name. -/
theorem getD_suggestions_toJson (s : ProofState) :
    s.toJson.getD "suggestions" = .ofTable SuggestionSlot.toJson s.suggestions := by
  rw [Json.getD, Json.get?_eq, toJson_eq, Json.fields, Keyed.find?_insert_self, Option.getD_some]

/-- A slot is set in the tree of a state as in its cache. -/
theorem apply_set_slot (s : ProofState) (key : String) (slot : SuggestionSlot) :
    (Patch.set (StatePath.suggestionSlot key) slot.toJson).apply s.toJson =
      { s with suggestions := s.suggestions.insert key slot }.toJson := by
  have hinserted : alterAt (fun _ => slot.toJson) [key]
      (.ofTable SuggestionSlot.toJson s.suggestions) =
        .ofTable SuggestionSlot.toJson (s.suggestions.insert key slot) := by
    rw [Json.alterAt_cons]
    exact congrArg Json.object
      (Keyed.mapValues_insert SuggestionSlot.toJson key slot s.suggestions.entries).symm
  show alterAt (fun _ => slot.toJson) ["suggestions", key] s.toJson = _
  rw [Json.alterAt_cons, getD_suggestions_toJson, hinserted, toJson_eq, toJson_eq, Json.fields,
    Keyed.insert_insert]
  rfl

/-- A slot is removed from the tree of a state as from its cache. -/
theorem apply_unset_slot (s : ProofState) (key : String) :
    (Patch.unset (StatePath.suggestionSlot key)).apply s.toJson =
      { s with suggestions := s.suggestions.erase key }.toJson := by
  have herased : removeAt [key] (.ofTable SuggestionSlot.toJson s.suggestions) =
      .ofTable SuggestionSlot.toJson (s.suggestions.erase key) :=
    congrArg Json.object List.filter_map
  show removeAt ["suggestions", key] s.toJson = _
  rw [toJson_eq, toJson_eq, Json.removeAt_some (Keyed.find?_insert_self _ _ _),
    Keyed.insert_insert, herased]
  rfl

/-- Slots that are removed one after the other are removed from the cache. -/
theorem applyAll_unset_slots (s : ProofState) (keys : List String) :
    Patch.applyAll (keys.map fun k => .unset (StatePath.suggestionSlot k)) s.toJson =
      { s with suggestions := s.suggestions.eraseAll keys }.toJson := by
  induction keys generalizing s with
  | nil => rfl
  | cons k rest ih =>
    rw [List.map_cons, Patch.applyAll_cons, apply_unset_slot, ih]
    rfl

section Refresh

variable {fileKey nodeId : String} {r : Refresh}

/-- A slot is written whenever it is known what suggestions are for and time goes on. -/
theorem isSome_refreshSlot (settings : RankingSettings) (s : ProofState) (fileKey nodeId : String)
    (now : Instant) : (refreshSlot settings s fileKey nodeId now).isSome =
      ((nextGeneration? s now).isSome && (target? s fileKey nodeId).isSome) := by
  unfold refreshSlot rank
  cases nextGeneration? s now with
  | none => rfl
  | some t =>
    cases target? s fileKey nodeId with
    | none => rfl
    | some target => rfl

/-- A refresh sets its own slot and removes the stale ones. -/
theorem patches_refreshSlot (h : refreshSlot settings s fileKey nodeId now = some r) :
    r.patches = .set (StatePath.suggestionSlot (SuggestionSlot.keyOf fileKey nodeId))
        r.slot.toJson ::
      (staleKeys settings s (SuggestionSlot.keyOf fileKey nodeId) r.slot.generatedAt).map
        fun k => .unset (StatePath.suggestionSlot k) := by
  obtain ⟨_, t, -, hslot, hpatches⟩ := refreshSlot_eq_some h
  have htime : r.slot.generatedAt = t := by rw [hslot]
  rw [htime]
  exact hpatches

/-- After a refresh the cache is the rewritten one. -/
theorem refreshed_eq (h : refreshSlot settings s fileKey nodeId now = some r) :
    refreshed settings s fileKey nodeId now =
      { s with
        suggestions := rewritten settings s (SuggestionSlot.keyOf fileKey nodeId) r.slot } := by
  rw [refreshed, h]
  rfl

/-- The patches of a refresh, applied to a state as it is stored. -/
theorem applyAll_refreshSlot (h : refreshSlot settings s fileKey nodeId now = some r) :
    Patch.applyAll r.patches s.toJson = (refreshed settings s fileKey nodeId now).toJson := by
  rw [patches_refreshSlot h, refreshed_eq h, Patch.applyAll_cons, apply_set_slot,
    applyAll_unset_slots, rewritten, Table.eraseAll_insert _ (not_mem_staleKeys settings s _ _)]

/-- What a refresh writes, what it drops, and what the cache is afterwards. -/
theorem refreshSlot_pruned (h : refreshSlot settings s fileKey nodeId now = some r) :
    ∃ (after : Table SuggestionSlot) (removed : List String),
      r.patches = .set (StatePath.suggestionSlot (SuggestionSlot.keyOf fileKey nodeId))
          r.slot.toJson :: removed.map (fun k => .unset (StatePath.suggestionSlot k)) ∧
      Patch.applyAll r.patches s.toJson = { s with suggestions := after }.toJson ∧
      (∀ tree : Json, tree.WellFormed → Holds tree s → now.IsReal →
        Holds (Patch.applyAll r.patches tree) { s with suggestions := after }) ∧
      Pruned settings (SuggestionSlot.keyOf fileKey nodeId) r.slot s.suggestions after removed := by
  refine ⟨rewritten settings s (SuggestionSlot.keyOf fileKey nodeId) r.slot,
    staleKeys settings s (SuggestionSlot.keyOf fileKey nodeId) r.slot.generatedAt,
    patches_refreshSlot h, ?_, ?_, pruned_rewritten settings s _ r.slot⟩
  · rw [applyAll_refreshSlot h, refreshed_eq h]
  · intro tree hwf hs hnow
    rw [← suggest_eq h, ← refreshed_eq h]
    exact holds_refreshed hwf hs settings fileKey nodeId
      (isReal_nextGeneration? (fun slot hslot => hs.isReal_generatedAt hslot) hnow)

/-- A cache of three slots, the oldest of which has expired, and an obligation without a slot. -/
def crowdedState : ProofState where
  files := .ofList [("A.lean", { graph := some (Graph.attachToRoot (.rootOnly "A.lean")
    { nodeId := "n", label := "theorem n", kind := .theorem_, status := .placeholder }) })]
  suggestions := .ofList [("A.lean#a", ⟨"A.lean", "a", [], ⟨1700000060, 0⟩⟩),
    ("A.lean#b", ⟨"A.lean", "b", [], ⟨1700000050, 0⟩⟩),
    ("A.lean#c", ⟨"A.lean", "c", [], ⟨1700000000, 0⟩⟩)]

/-- In a crowded state one slot expires and one makes room. -/
theorem refreshSlot_pruned_crowdedState :
    ∃ (r : Refresh) (after : Table SuggestionSlot) (removed : List String),
      refreshSlot { cacheTtlSecs := 30, cacheMaxEntries := 2 } crowdedState "A.lean" "n"
        ⟨1700000070, 0⟩ = some r ∧
      Pruned { cacheTtlSecs := 30, cacheMaxEntries := 2 } (SuggestionSlot.keyOf "A.lean" "n")
        r.slot crowdedState.suggestions after removed := by
  have hsome : (refreshSlot { cacheTtlSecs := 30, cacheMaxEntries := 2 } crowdedState "A.lean" "n"
      ⟨1700000070, 0⟩).isSome = true := by
    have htarget : (target? crowdedState "A.lean" "n").isSome = true := by decide
    rw [isSome_refreshSlot, htarget]
    decide
  obtain ⟨r, hr⟩ := Option.isSome_iff_exists.mp hsome
  obtain ⟨after, removed, -, -, -, hpruned⟩ := refreshSlot_pruned hr
  exact ⟨r, after, removed, hr, hpruned⟩

end Refresh

end Recommendation

end ProofLedger
