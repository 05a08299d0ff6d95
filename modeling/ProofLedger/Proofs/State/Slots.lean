import ProofLedger.Proofs.State.Generations

/-!
# Slots of two obligations

The slots of all obligations are in one table, under the file and the node joined by a separator
that may also occur in either. So two obligations have one key if the separator can be read at two
places (`keyOf_eq_keyOf_iff`), and then the slot of the one is read as that of the other. That is
the only way in which a slot is lost within its time: a refresh makes room by dropping the oldest
slots, and the slot that was written last is newer than all others
(`slot_kept_unless_confused`).
-/

namespace ProofLedger

-- ── Keys ──────────────────────────────────────────────────────────────────────

namespace SuggestionSlot

/-- Whether two different obligations have the same joined text: the one has a text between two
    separators in its file, and the other has it in its node. -/
def Confused (fileKey nodeId fileKey' nodeId' : String) : Prop :=
  ∃ middle,
    (fileKey' = fileKey ++ "#" ++ middle ∧ nodeId = middle ++ "#" ++ nodeId') ∨
    (fileKey = fileKey' ++ "#" ++ middle ∧ nodeId' = middle ++ "#" ++ nodeId)

variable {fileKey nodeId fileKey' nodeId' : String}

/-- What stands before a separator is nothing, or begins with another separator. -/
theorem overlap_cases {tail tail' between : List Char} (h : '#' :: tail = between ++ '#' :: tail') :
    (between = [] ∧ tail = tail') ∨
      ∃ middle, between = '#' :: middle ∧ tail = middle ++ '#' :: tail' := by
  cases between with
  | nil => exact Or.inl ⟨rfl, (List.cons.inj h).2⟩
  | cons c middle =>
    obtain ⟨rfl, htail⟩ := List.cons.inj h
    exact Or.inr ⟨middle, rfl, htail⟩

/-- The key of a slot is the file, a mark and the node. -/
theorem toList_keyOf (fileKey nodeId : String) :
    (keyOf fileKey nodeId).toList = fileKey.toList ++ '#' :: nodeId.toList := by
  simp only [keyOf, String.toList_append, List.append_assoc]
  rfl

theorem eq_keyOf_of_toList {key file node : String}
    (h : key.toList = file.toList ++ '#' :: node.toList) : key = keyOf file node :=
  String.toList_injective (h.trans (toList_keyOf file node).symm)

/-- Obligations that are confused share the key of their slot. -/
theorem keyOf_eq_of_confused (h : Confused fileKey nodeId fileKey' nodeId') :
    keyOf fileKey nodeId = keyOf fileKey' nodeId' := by
  obtain ⟨middle, ⟨rfl, rfl⟩ | ⟨rfl, rfl⟩⟩ := h
  · simp only [keyOf, String.append_assoc]
  · simp only [keyOf, String.append_assoc]

/-- Obligations with one key are the same, or are confused. -/
theorem keyOf_eq_keyOf_iff : keyOf fileKey nodeId = keyOf fileKey' nodeId' ↔
    (fileKey = fileKey' ∧ nodeId = nodeId') ∨ Confused fileKey nodeId fileKey' nodeId' := by
  constructor
  · intro h
    have hlists : fileKey.toList ++ '#' :: nodeId.toList =
        fileKey'.toList ++ '#' :: nodeId'.toList := by
      rw [← toList_keyOf, ← toList_keyOf, h]
    -- one file is a beginning of the other, and what it lacks stands before its own separator
    rcases List.append_eq_append_iff.mp hlists with
      ⟨between, hfile, hrest⟩ | ⟨between, hfile, hrest⟩
    · rcases overlap_cases hrest with ⟨rfl, hnode⟩ | ⟨middle, rfl, hnode⟩
      · rw [List.append_nil] at hfile
        exact Or.inl ⟨(String.toList_injective hfile).symm, String.toList_injective hnode⟩
      · rw [← String.toList_ofList (l := middle)] at hfile hnode
        exact Or.inr ⟨_, Or.inl ⟨eq_keyOf_of_toList hfile, eq_keyOf_of_toList hnode⟩⟩
    · rcases overlap_cases hrest with ⟨rfl, hnode⟩ | ⟨middle, rfl, hnode⟩
      · rw [List.append_nil] at hfile
        exact Or.inl ⟨String.toList_injective hfile, (String.toList_injective hnode).symm⟩
      · rw [← String.toList_ofList (l := middle)] at hfile hnode
        exact Or.inr ⟨_, Or.inr ⟨eq_keyOf_of_toList hfile, eq_keyOf_of_toList hnode⟩⟩
  · rintro (⟨rfl, rfl⟩ | hconfused)
    · rfl
    · exact keyOf_eq_of_confused hconfused

end SuggestionSlot

-- ── Refreshing twice ──────────────────────────────────────────────────────────

namespace Recommendation

/-- What suggestions are for is known from the files and the history. -/
theorem target?_congr {s s' : ProofState} (hfiles : s.files = s'.files)
    (hhistory : s.history = s'.history) (fileKey nodeId : String) :
    target? s fileKey nodeId = target? s' fileKey nodeId := by
  simp only [target?, category?, ProofState.node?, ProofState.goal?, ProofState.nodeHistory?,
    hfiles, hhistory]

/-- The clock gives the time of a slot as long as all slots are before it. -/
theorem nextGeneration?_of_before {s : ProofState} {now : Instant}
    (h : ∀ slot ∈ s.suggestions.values, slot.generatedAt < now) :
    nextGeneration? s now = some now := by
  cases hnewest : newestGeneration? s with
  | none => rw [nextGeneration?, hnewest]
  | some newest =>
    obtain ⟨slot, hslot, rfl⟩ := mem_of_newestGeneration? hnewest
    rw [nextGeneration?_of_newest hnewest, if_pos (h slot hslot)]

variable {settings : RankingSettings} {s : ProofState} {key k : String}
  {slot first : SuggestionSlot}

/-- A slot that is newer than all others is not dropped within its time if there is room for it. -/
theorem get?_rewritten_of_newest (hroom : 2 ≤ settings.cacheMaxEntries) (hne : k ≠ key)
    (hfirst : s.suggestions.get? k = some first)
    (hnewest : ∀ k' other, k' ≠ k → s.suggestions.get? k' = some other →
      other.generatedAt < first.generatedAt)
    (hfresh : IsFresh settings slot.generatedAt first) :
    (rewritten settings s key slot).get? k = some first := by
  have hpruned := pruned_rewritten settings s key slot
  have hkeeps : k ∉ staleKeys settings s key slot.generatedAt := by
    intro hstale
    -- something else was kept in its place, which is not newer
    have hfull := hpruned.needed k first hstale hfirst hfresh
    rw [size_rewritten] at hfull
    have hlength : 0 < (kept settings s key slot.generatedAt).length := by omega
    obtain ⟨⟨k', other⟩, hkept⟩ := List.exists_mem_of_length_pos hlength
    have hk' : k' ≠ key := (mem_others.mp (mem_kept.mp hkept).1).1
    have hafter : (rewritten settings s key slot).get? k' = some other :=
      (get?_rewritten_ne hk').mpr hkept
    have hother : k' ≠ k := fun hsame => not_mem_staleKeys_of_mem_kept hkept (hsame ▸ hstale)
    have holder := hnewest k' other hother (hpruned.unchanged k' other hk' hafter)
    rcases hpruned.oldest k first hstale hfirst hfresh k' other hk' hafter with hlt | ⟨heq, -⟩
    · exact lt_asymm hlt holder
    · exact holder.ne heq.symm
  exact (get?_rewritten_ne hne).mpr (mem_kept.mpr ⟨mem_others.mpr ⟨hne, hfirst⟩, hkeeps⟩)

end Recommendation

namespace Operation

open SuggestionSlot (Confused keyOf)

variable {settings : RankingSettings} {tree : Json} {fileKey nodeId fileKey' nodeId' : String}
  {now now' : Instant} {first second : SuggestionSlot}

/-- A refresh does not change what suggestions are for. -/
theorem target?_run_suggest (settings : RankingSettings) (tree : Json)
    (fileKey nodeId fileKey' nodeId' : String) (now : Instant) :
    Recommendation.target? (.ofJson ((suggest fileKey nodeId now).run settings tree))
        fileKey' nodeId' = Recommendation.target? (.ofJson tree) fileKey' nodeId' := by
  have hfiles : ((suggest fileKey nodeId now).run settings tree).get? "files" = tree.get? "files" :=
    get?_applyAll_ne (by simp [writes]) settings _ tree
  have hhistory : ((suggest fileKey nodeId now).run settings tree).get? "history" =
      tree.get? "history" := get?_applyAll_ne (by simp [writes]) settings _ tree
  refine Recommendation.target?_congr ?_ ?_ fileKey' nodeId'
  · simp only [ProofState.ofJson, ProofState.readSection, hfiles]
  · simp only [ProofState.ofJson, ProofState.readSection, hhistory]

/-- A slot is written when it is known what suggestions are for and time goes on. -/
theorem exists_slot?_suggest (h : (Recommendation.target? (.ofJson tree) fileKey nodeId).isSome)
    (settings : RankingSettings)
    (htime : (Recommendation.nextGeneration? (.ofJson tree) now).isSome) :
    ∃ slot, (suggest fileKey nodeId now).slot? settings (.ofJson tree) = some slot := by
  refine Option.isSome_iff_exists.mp ?_
  rw [slot?, Option.isSome_map, Recommendation.isSome_refreshSlot, htime, h]
  rfl

/-- What was written last is newer than whatever else is cached. -/
theorem before_of_cached (h : HasCache tree) (hreal : now.IsReal)
    (hslot : (suggest fileKey nodeId now).slot? settings (.ofJson tree) = some first)
    {k : String} {other : SuggestionSlot} (hk : k ≠ keyOf fileKey nodeId)
    (hother : (cacheOf ((suggest fileKey nodeId now).run settings tree)).get? k = some other) :
    other.generatedAt < first.generatedAt := by
  rw [(cacheOf_run_suggest h hreal hslot).2] at hother
  obtain ⟨r, hr, rfl⟩ := Option.map_eq_some_iff.mp hslot
  have hcached := (Recommendation.pruned_rewritten settings _ _ r.slot).unchanged k other hk hother
  exact Recommendation.lt_nextGeneration? (fun slot hslot => h.isReal hslot)
    (Recommendation.generatedAt_refreshSlot hr) (Table.mem_values.mpr ⟨k, hcached⟩)

/-- If two obligations are confused, the slot of the second is read for the first. -/
theorem slot?_runAll_of_confused (htree : HasCache tree) (hreal : now.IsReal) (hreal' : now'.IsReal)
    (hwrite : (suggest fileKey nodeId now).slot? settings (.ofJson tree) = some first)
    (hwrite' : (suggest fileKey' nodeId' now').slot? settings
      (.ofJson ((suggest fileKey nodeId now).run settings tree)) = some second)
    (hconfused : Confused fileKey nodeId fileKey' nodeId') :
    (ProofState.ofJson (runAll settings tree
      [suggest fileKey nodeId now, suggest fileKey' nodeId' now'])).slot? fileKey nodeId =
        some second := by
  rw [ProofState.slot?, SuggestionSlot.keyOf_eq_of_confused hconfused]
  exact slot?_run_suggest (cacheOf_run_suggest htree hreal hwrite).1 hreal' hwrite'

/-- Of two different obligations, for both of which it is known what suggestions are for, the slot
    of the first is still there when that of the second was written within its time, unless the two
    are confused; then the slot of the second is in its place. No slot is at the end of time. -/
theorem slot_kept_unless_confused (htree : HasCache tree) (hroom : 2 ≤ settings.cacheMaxEntries)
    (hreal : now.IsReal) (hreal' : now'.IsReal)
    (hfirst : (Recommendation.target? (.ofJson tree) fileKey nodeId).isSome)
    (hsecond : (Recommendation.target? (.ofJson tree) fileKey' nodeId').isSome)
    (htime : (Recommendation.nextGeneration? (.ofJson tree) now).isSome)
    (htime' : (Recommendation.nextGeneration?
      (.ofJson ((suggest fileKey nodeId now).run settings tree)) now').isSome)
    (hdifferent : ¬ (fileKey = fileKey' ∧ nodeId = nodeId')) :
    ∃ first second,
      (suggest fileKey nodeId now).slot? settings (.ofJson tree) = some first ∧
      (suggest fileKey' nodeId' now').slot? settings
        (.ofJson ((suggest fileKey nodeId now).run settings tree)) = some second ∧
      (first.fileKey = fileKey ∧ first.nodeId = nodeId) ∧
      (second.fileKey = fileKey' ∧ second.nodeId = nodeId') ∧
      (Recommendation.IsFresh settings second.generatedAt first →
        let after := ProofState.ofJson
          (runAll settings tree [suggest fileKey nodeId now, suggest fileKey' nodeId' now'])
        (¬ Confused fileKey nodeId fileKey' nodeId' → after.slot? fileKey nodeId = some first) ∧
        (Confused fileKey nodeId fileKey' nodeId' → after.slot? fileKey nodeId = some second)) := by
  obtain ⟨first, hwrite⟩ := exists_slot?_suggest hfirst settings htime
  rw [← target?_run_suggest settings tree fileKey nodeId fileKey' nodeId' now] at hsecond
  obtain ⟨second, hwrite'⟩ := exists_slot?_suggest hsecond settings htime'
  obtain ⟨hcache, -⟩ := cacheOf_run_suggest htree hreal hwrite
  refine ⟨first, second, hwrite, hwrite', obligation_of_slot? hwrite, obligation_of_slot? hwrite',
    fun hfresh => ⟨fun hclear => ?_, slot?_runAll_of_confused htree hreal hreal' hwrite hwrite'⟩⟩
  have hkeys : keyOf fileKey nodeId ≠ keyOf fileKey' nodeId' := fun hsame =>
    (SuggestionSlot.keyOf_eq_keyOf_iff.mp hsame).elim hdifferent hclear
  show (cacheOf ((suggest fileKey' nodeId' now').run settings
    ((suggest fileKey nodeId now).run settings tree))).get? (keyOf fileKey nodeId) = some first
  rw [(cacheOf_run_suggest hcache hreal' hwrite').2]
  exact Recommendation.get?_rewritten_of_newest hroom hkeys (slot?_run_suggest htree hreal hwrite)
    (fun _ _ hk hother => before_of_cached htree hreal hwrite hk hother) hfresh

-- ── Two obligations that are confused ─────────────────────────────────────────

/-- A slot has the time of the clock if all that are cached are before it. -/
theorem generatedAt_of_before (hbefore : ∀ slot ∈ (cacheOf tree).values, slot.generatedAt < now)
    (hwrite : (suggest fileKey nodeId now).slot? settings (.ofJson tree) = some first) :
    first.generatedAt = now := by
  obtain ⟨r, hr, rfl⟩ := Option.map_eq_some_iff.mp hwrite
  have htime := Recommendation.nextGeneration?_of_before hbefore
  exact Option.some.inj ((Recommendation.generatedAt_refreshSlot hr).symm.trans htime)

/-- The next slot is later than the cached ones if the clock goes on. -/
theorem before_run_suggest (htree : HasCache tree) (hreal : now.IsReal)
    (hbefore : ∀ slot ∈ (cacheOf tree).values, slot.generatedAt < now) (hlt : now < now')
    (hwrite : (suggest fileKey nodeId now).slot? settings (.ofJson tree) = some first) :
    ∀ slot ∈ (cacheOf ((suggest fileKey nodeId now).run settings tree)).values,
      slot.generatedAt < now' := by
  intro slot hslot
  rw [(cacheOf_run_suggest htree hreal hwrite).2] at hslot
  rcases Recommendation.eq_or_mem_of_mem_rewritten hslot with rfl | hcached
  · rw [generatedAt_of_before hbefore hwrite]
    exact hlt
  · exact (hbefore slot hcached).trans hlt

/-- As long as the clock goes on, slots have its times. -/
theorem generatedAt_of_clock (htree : HasCache tree) (hreal : now.IsReal)
    (hbefore : ∀ slot ∈ (cacheOf tree).values, slot.generatedAt < now) (hlt : now < now')
    (hwrite : (suggest fileKey nodeId now).slot? settings (.ofJson tree) = some first)
    (hwrite' : (suggest fileKey' nodeId' now').slot? settings
      (.ofJson ((suggest fileKey nodeId now).run settings tree)) = some second) :
    first.generatedAt = now ∧ second.generatedAt = now' := by
  exact ⟨generatedAt_of_before hbefore hwrite,
    generatedAt_of_before (before_run_suggest htree hreal hbefore hlt hwrite) hwrite'⟩

/-- A failed attempt on an obligation. -/
def attemptOn (fileKey nodeId : String) : Operation :=
  .record { fileKey, nodeId, tactic := "simp", result := .error } ⟨1709294400, 0⟩

/-- What is stored after three attempts on different obligations. -/
def threeTried : Json :=
  runAll {} Json.emptyObject [attemptOn "a#b" "c", attemptOn "a" "b#c", attemptOn "a" "b"]

theorem hasCache_threeTried : HasCache threeTried := by
  have hempty : HasCache Json.emptyObject :=
    ⟨.object Keyed.sorted_nil (List.forall_mem_nil _), Or.inl rfl⟩
  have hreal : AllReal [attemptOn "a#b" "c", attemptOn "a" "b#c", attemptOn "a" "b"] := by decide
  exact (covered_runAll hempty hreal).cache

theorem isSome_target?_threeTried :
    (Recommendation.target? (.ofJson threeTried) "a#b" "c").isSome = true ∧
      (Recommendation.target? (.ofJson threeTried) "a" "b#c").isSome = true ∧
      (Recommendation.target? (.ofJson threeTried) "a" "b").isSome = true := by
  decide +kernel

theorem before_threeTried : ∀ slot ∈ (cacheOf threeTried).values, slot.generatedAt < now := by
  have hempty : (cacheOf threeTried).values = [] := by decide +kernel
  rw [hempty]
  exact List.forall_mem_nil _

theorem isSome_nextGeneration?_threeTried (settings : RankingSettings) {fileKey nodeId : String}
    (h : (Recommendation.target? (.ofJson threeTried) fileKey nodeId).isSome) :
    (Recommendation.nextGeneration? (.ofJson threeTried) ⟨1709294500, 0⟩).isSome ∧
      (Recommendation.nextGeneration?
        (.ofJson ((suggest fileKey nodeId ⟨1709294500, 0⟩).run settings threeTried))
        ⟨1709294600, 0⟩).isSome := by
  have htime : (Recommendation.nextGeneration? (.ofJson threeTried) ⟨1709294500, 0⟩).isSome := by
    rw [Recommendation.nextGeneration?_of_before before_threeTried]
    rfl
  obtain ⟨slot, hwrite⟩ := exists_slot?_suggest h settings htime
  refine ⟨htime, ?_⟩
  rw [Recommendation.nextGeneration?_of_before
    (before_run_suggest hasCache_threeTried (by decide) before_threeTried (by decide) hwrite)]
  rfl

/-- Slots last for more than the time between the two refreshes. -/
theorem isFresh_of_threeTried (hfirst : first.generatedAt = ⟨1709294500, 0⟩)
    (hsecond : second.generatedAt = ⟨1709294600, 0⟩) (httl : settings.cacheTtlSecs = 1800) :
    Recommendation.IsFresh settings second.generatedAt first := by
  unfold Recommendation.IsFresh
  rw [hfirst, hsecond, httl]
  decide

/-- The first slot is read again although its file and its node both begin like those of the
    second, and there is no room for a third one. -/
theorem slot_kept_unless_confused_threeTried :
    HasCache threeTried ∧
      (Recommendation.target? (.ofJson threeTried) "a#b" "c").isSome ∧
      (Recommendation.target? (.ofJson threeTried) "a" "b").isSome ∧
      ∃ first, first.fileKey = "a#b" ∧ first.nodeId = "c" ∧
        (ProofState.ofJson (runAll { cacheMaxEntries := 2 } threeTried
          [suggest "a#b" "c" ⟨1709294500, 0⟩, suggest "a" "b" ⟨1709294600, 0⟩])).slot? "a#b" "c" =
            some first := by
  have hreal : (⟨1709294500, 0⟩ : Instant).IsReal := by decide
  have hreal' : (⟨1709294600, 0⟩ : Instant).IsReal := by decide
  have hroom : 2 ≤ ({ cacheMaxEntries := 2 } : RankingSettings).cacheMaxEntries := Nat.le_refl 2
  obtain ⟨hfirst, -, hsecond⟩ := isSome_target?_threeTried
  obtain ⟨hnext, hnext'⟩ := isSome_nextGeneration?_threeTried { cacheMaxEntries := 2 } hfirst
  obtain ⟨first, second, hwrite, hwrite', ⟨hfile, hnode⟩, -, hkept⟩ :=
    slot_kept_unless_confused hasCache_threeTried hroom hreal hreal' hfirst hsecond hnext hnext'
      (by decide)
  obtain ⟨htime, htime'⟩ := generatedAt_of_clock hasCache_threeTried hreal before_threeTried
    (by decide) hwrite hwrite'
  have hclear : ¬ Confused "a#b" "c" "a" "b" := fun hconfused =>
    absurd (SuggestionSlot.keyOf_eq_of_confused hconfused) (by decide)
  have hfresh : Recommendation.IsFresh { cacheMaxEntries := 2 } second.generatedAt first :=
    isFresh_of_threeTried htime htime' rfl
  exact ⟨hasCache_threeTried, hfirst, hsecond, first, hfile, hnode, (hkept hfresh).1 hclear⟩

/-- Slots do not belong to one obligation: after the node `c` of the file `a#b` the node `b#c` of
    the file `a` is refreshed, and its slot is read for the first one. -/
theorem not_slot_kept_confused :
    ¬ ∀ (settings : RankingSettings) (tree : Json) (fileKey nodeId fileKey' nodeId' : String)
        (now now' : Instant) (first second : SuggestionSlot),
      HasCache tree → 2 ≤ settings.cacheMaxEntries → now.IsReal → now'.IsReal →
      ¬ (fileKey = fileKey' ∧ nodeId = nodeId') →
      (suggest fileKey nodeId now).slot? settings (.ofJson tree) = some first →
      (suggest fileKey' nodeId' now').slot? settings
        (.ofJson ((suggest fileKey nodeId now).run settings tree)) = some second →
      Recommendation.IsFresh settings second.generatedAt first →
      (ProofState.ofJson (runAll settings tree [suggest fileKey nodeId now,
          suggest fileKey' nodeId' now'])).slot? fileKey nodeId = some first ∧
        first.fileKey = fileKey ∧ first.nodeId = nodeId := by
  intro hall
  have hreal : (⟨1709294500, 0⟩ : Instant).IsReal := by decide
  have hreal' : (⟨1709294600, 0⟩ : Instant).IsReal := by decide
  obtain ⟨hfirst, hsecond, -⟩ := isSome_target?_threeTried
  obtain ⟨hnext, hnext'⟩ := isSome_nextGeneration?_threeTried {} hfirst
  obtain ⟨first, hwrite⟩ := exists_slot?_suggest hfirst {} hnext
  rw [← target?_run_suggest {} threeTried "a#b" "c" "a" "b#c" ⟨1709294500, 0⟩] at hsecond
  obtain ⟨second, hwrite'⟩ := exists_slot?_suggest hsecond {} hnext'
  obtain ⟨htime, htime'⟩ := generatedAt_of_clock hasCache_threeTried hreal before_threeTried
    (by decide) hwrite hwrite'
  have hfresh : Recommendation.IsFresh {} second.generatedAt first :=
    isFresh_of_threeTried htime htime' rfl
  have hconfused : Confused "a#b" "c" "a" "b#c" := ⟨"b", Or.inr (by decide)⟩
  have hread := slot?_runAll_of_confused hasCache_threeTried hreal hreal' hwrite hwrite' hconfused
  obtain ⟨hkept, hfile, -⟩ := hall {} threeTried "a#b" "c" "a" "b#c" _ _ first second
    hasCache_threeTried (by decide) hreal hreal' (by decide) hwrite hwrite' hfresh
  -- one slot would name both files
  have hsame : second = first := Option.some.inj (hread.symm.trans hkept)
  rw [← hsame, (obligation_of_slot? hwrite').1] at hfile
  exact absurd hfile (by decide)

end Operation

end ProofLedger
