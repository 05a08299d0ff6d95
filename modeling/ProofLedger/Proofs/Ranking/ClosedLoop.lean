import Mathlib.Data.List.Dedup
import ProofLedger.Proofs.Ledger.Patterns
import ProofLedger.Proofs.Ranking.Pools

/-!
# What is recorded is what is ranked

The suggestions for an obligation are drawn from two pools, the patterns and the statistics of its
own history, which count some attempts twice. After a run the second pool adds nothing, since every
class in a history has a pattern (`candidates_eq_ofPatterns`). So the candidates are the classes
that were tried, once each, with the counts of all attempts (`Candidate.Counts`), and the
suggestions are the first of those with enough samples (`rankCandidates_eq_take`).
-/

namespace ProofLedger

-- ── Ranking keeps candidates apart ────────────────────────────────────────────

/-- The candidates with enough samples. -/
def RankingSettings.qualified (settings : RankingSettings) (candidates : List (Candidate Float)) :
    List (Candidate Float) :=
  candidates.filter fun c => settings.minSampleSize ≤ c.sampleSize.toNat

namespace SuggestionEntry

/-- The suggestion that a candidate becomes. -/
def ofCandidate (settings : RankingSettings) (target : RankTarget) (now : Instant)
    (c : Candidate Float) : SuggestionEntry :=
  ofScored target now (Arithmetic.double.score settings.weights target now c)

/-- The category and the tactic key of a suggestion. -/
def source (e : SuggestionEntry) : Option Category × String := (e.sourceCategory, e.tacticKey)

end SuggestionEntry

/-- The category and the tactic key of suggestions from a class. -/
def TacticClass.source (c : TacticClass) : Option Category × String :=
  (some c.category, c.tacticKey)

theorem TacticClass.source_injective : Function.Injective source := by
  rintro ⟨_, _⟩ ⟨_, _⟩ h
  cases h
  rfl

/-- The suggestions are the first ones of all qualified candidates in some order. -/
theorem rankCandidates_eq_take (settings : RankingSettings) (target : RankTarget) (now : Instant)
    (candidates : List (Candidate Float)) :
    ∃ all : List SuggestionEntry,
      all.Perm ((settings.qualified candidates).map
        (SuggestionEntry.ofCandidate settings target now)) ∧
      rankCandidates settings target now candidates = all.take settings.limit := by
  refine ⟨(Arithmetic.double.rankAll settings.weights settings.minSampleSize target now
    candidates).map (SuggestionEntry.ofScored target now), ?_, ?_⟩
  · have hperm := (List.mergeSort_perm ((settings.qualified candidates).map
      (Arithmetic.double.score settings.weights target now))
      (fun a b => Arithmetic.double.compareScored a b != .gt)).map
        (SuggestionEntry.ofScored target now)
    rw [List.map_map] at hperm
    exact hperm
  · exact List.map_take

variable {settings : RankingSettings} {target : RankTarget} {now : Instant}
  {candidates : List (Candidate Float)}

theorem candidate_of_mem_rankCandidates {e : SuggestionEntry}
    (he : e ∈ rankCandidates settings target now candidates) :
    ∃ c ∈ candidates, e = SuggestionEntry.ofCandidate settings target now c := by
  obtain ⟨all, hperm, htake⟩ := rankCandidates_eq_take settings target now candidates
  rw [htake] at he
  obtain ⟨c, hc, rfl⟩ := List.mem_map.mp (hperm.mem_iff.mp (List.mem_of_mem_take he))
  exact ⟨c, (List.mem_filter.mp hc).1, rfl⟩

/-- Candidates of different classes become suggestions from different sources. -/
theorem nodup_source_rankCandidates (hnodup : (candidates.map (·.tacticClass)).Nodup) :
    ((rankCandidates settings target now candidates).map (·.source)).Nodup := by
  obtain ⟨all, hperm, htake⟩ := rankCandidates_eq_take settings target now candidates
  have hclasses : ((settings.qualified candidates).map (·.tacticClass)).Nodup :=
    (List.filter_sublist.map _).nodup hnodup
  have hsources := hclasses.map TacticClass.source_injective
  rw [List.map_map] at hsources
  have hall : (all.map (·.source)).Nodup := by
    rw [(hperm.map _).nodup_iff, List.map_map]
    exact hsources
  rw [htake]
  exact ((List.take_sublist _ _).map _).nodup hall

/-- No qualified candidate is left out unless there are too many. -/
theorem mem_rankCandidates_of_qualified
    (hfew : (settings.qualified candidates).length ≤ settings.limit)
    {c : Candidate Float} (hc : c ∈ settings.qualified candidates) :
    SuggestionEntry.ofCandidate settings target now c ∈
      rankCandidates settings target now candidates := by
  obtain ⟨all, hperm, htake⟩ := rankCandidates_eq_take settings target now candidates
  rw [htake, List.take_of_length_le, hperm.mem_iff]
  · exact List.mem_map_of_mem hc
  · rw [hperm.length_eq, List.length_map]
    exact hfew

-- ── The candidates of a state ─────────────────────────────────────────────────

namespace Ledger

variable {s : ProofState} {made : List Submission}

theorem AllTabulated.key_eq (h : AllTabulated s made) {key : String} {p : PatternEntry}
    (hp : s.patterns.get? key = some p) : key = p.tacticClass.key := by
  obtain ⟨c, rfl⟩ := h.keyed key p hp
  have hcounts := h.tabulates c p hp
  rw [PatternEntry.tacticClass, hcounts.category, hcounts.tacticKey]

theorem AllTabulated.nodup_classes (h : AllTabulated s made) :
    (s.patterns.values.map (·.tacticClass)).Nodup := by
  have hkeys : (s.patterns.values.map (·.tacticClass)).map TacticClass.key = s.patterns.keys := by
    rw [Table.values, List.map_map, List.map_map]
    refine List.map_congr_left ?_
    intro e he
    exact (h.key_eq (Table.mem_entries.mp he)).symm
  refine List.Nodup.of_map TacticClass.key ?_
  rw [hkeys]
  exact s.patterns.sorted.nodup

/-- What was tried on an obligation has patterns, so its statistics add no candidates. -/
theorem candidates_eq_ofPatterns (hs : AllChronicled s made) (h : AllTabulated s made)
    (hroom : made.length < UInt64.size) (fileKey nodeId : String) :
    Recommendation.candidates s fileKey nodeId = s.patterns.values.map fun p =>
      Candidate.ofPattern p (LocalStats.lookup p.tacticClass
        (LocalStats.ofHistory (s.historyOf fileKey nodeId))) := by
  have hstats : ((s.nodeHistory? fileKey nodeId).map LocalStats.ofHistory).getD [] =
      LocalStats.ofHistory (s.historyOf fileKey nodeId) := by
    rw [ProofState.historyOf]
    cases s.nodeHistory? fileKey nodeId <;> rfl
  have hordered : LocalStats.Ordered (LocalStats.ofHistory (s.historyOf fileKey nodeId)) :=
    LocalStats.ordered_tally _
  rw [Recommendation.candidates, hstats, Candidate.collect_eq hordered.nodup]
  refine (congrArg (_ ++ ·) ?_).trans (List.append_nil _)
  rw [List.map_eq_nil_iff, Candidate.unknown, List.filter_eq_nil_iff]
  intro e he
  obtain ⟨r, hr, hclass⟩ := LocalStats.class_of_mem_tally _ e he
  obtain ⟨id, hget⟩ := Table.mem_values.mp hr
  have hchronicles :=
    hs fileKey nodeId (Nat.lt_of_le_of_lt (length_attemptsOn_le fileKey nodeId made) hroom)
  obtain ⟨k, a, ha, -, rfl⟩ := hchronicles.attempt_of_get? hget
  have hmade := (List.mem_filter.mp (List.mem_of_getElem? ha)).1
  obtain ⟨p, hp⟩ := Option.isSome_iff_exists.mp ((h.present e.1).mpr ⟨a, hmade, hclass⟩)
  have hcounts := h.tabulates e.1 p hp
  have hsame : p.tacticClass = e.1 := by
    rw [PatternEntry.tacticClass, hcounts.category, hcounts.tacticKey]
  have hknown : e.1 ∈ s.patterns.values.map (·.tacticClass) :=
    List.mem_map.mpr ⟨p, Table.mem_values.mpr ⟨_, hp⟩, hsame⟩
  exact fun hunknown => of_decide_eq_true hunknown hknown

/-- Whether a candidate counts the attempts of its class. -/
structure Counts (made : List Submission) (c : Candidate Float) : Prop where
  tried : ∃ a ∈ made, a.tacticClass = c.tacticClass
  samples : c.sampleSize = UInt64.ofNat (ofClass c.tacticClass made).length
  rate : c.rawScore = successRate
    (UInt64.ofNat ((ofClass c.tacticClass made).countP fun a => a.succeeded)) c.sampleSize

/-- The candidates for an obligation are the classes that were tried anywhere, once each, and
    count all attempts. -/
theorem candidates_of_made (hs : AllChronicled s made) (h : AllTabulated s made)
    (hroom : made.length < UInt64.size) (fileKey nodeId : String) :
    ((Recommendation.candidates s fileKey nodeId).map (·.tacticClass)).Nodup ∧
      (∀ c ∈ Recommendation.candidates s fileKey nodeId, Counts made c) ∧
      ∀ d : TacticClass, (∃ a ∈ made, a.tacticClass = d) →
        ∃ c ∈ Recommendation.candidates s fileKey nodeId, c.tacticClass = d := by
  rw [candidates_eq_ofPatterns hs h hroom]
  refine ⟨?_, ?_, ?_⟩
  · rw [List.map_map]
    exact h.nodup_classes
  · intro c hc
    obtain ⟨p, hp, rfl⟩ := List.mem_map.mp hc
    obtain ⟨key, hget⟩ := Table.mem_values.mp hp
    rw [h.key_eq hget] at hget
    have hcounts := h.tabulates p.tacticClass p hget
    refine ⟨(h.present p.tacticClass).mp ?_, hcounts.samples, ?_⟩
    · rw [patternOf?, hget]
      rfl
    · show p.score =
        successRate (UInt64.ofNat ((ofClass p.tacticClass made).countP _)) p.sampleSize
      rw [hcounts.score, hcounts.successes]
  · intro d hd
    obtain ⟨p, hp⟩ := Option.isSome_iff_exists.mp ((h.present d).mpr hd)
    have hcounts := h.tabulates d p hp
    refine ⟨_, List.mem_map_of_mem (Table.mem_values.mpr ⟨_, hp⟩), ?_⟩
    rw [Candidate.tacticClass, Candidate.ofPattern, hcounts.category, hcounts.tacticKey]

theorem Counts.toNat_samples {c : Candidate Float} (h : Counts made c)
    (hroom : made.length < UInt64.size) :
    c.sampleSize.toNat = (ofClass c.tacticClass made).length := by
  rw [h.samples]
  exact UInt64.toNat_ofNat_of_lt' (Nat.lt_of_le_of_lt (List.length_filter_le _ made) hroom)

/-- The classes that were tried, without those with too few attempts. -/
def triedOften (settings : RankingSettings) (made : List Submission) : List TacticClass :=
  (made.map (·.tacticClass)).dedup.filter fun c => settings.minSampleSize ≤ (ofClass c made).length

/-- The qualified candidates are the classes that were tried often enough. -/
theorem qualified_perm_triedOften (hs : AllChronicled s made) (h : AllTabulated s made)
    (hroom : made.length < UInt64.size) (settings : RankingSettings) (fileKey nodeId : String) :
    ((settings.qualified (Recommendation.candidates s fileKey nodeId)).map
      (·.tacticClass)).Perm (triedOften settings made) := by
  obtain ⟨hnodup, hcounts, hall⟩ := candidates_of_made hs h hroom fileKey nodeId
  refine (List.perm_ext_iff_of_nodup ((List.filter_sublist.map _).nodup hnodup)
    ((List.nodup_dedup _).filter _)).mpr ?_
  intro d
  rw [List.mem_filter, List.mem_dedup, List.mem_map, List.mem_map, decide_eq_true_eq]
  constructor
  · rintro ⟨c, hc, rfl⟩
    obtain ⟨hmem, henough⟩ := List.mem_filter.mp hc
    have hcount := hcounts c hmem
    rw [← hcount.toNat_samples hroom]
    exact ⟨hcount.tried, of_decide_eq_true henough⟩
  · rintro ⟨htried, henough⟩
    obtain ⟨c, hc, rfl⟩ := hall d htried
    rw [← (hcounts c hc).toNat_samples hroom] at henough
    exact ⟨c, List.mem_filter.mpr ⟨hc, decide_eq_true henough⟩, rfl⟩

end Ledger

-- ── Runs ──────────────────────────────────────────────────────────────────────

namespace Operation

open Ledger

/-- After every run over an empty tree, every suggestion counts all attempts of its category and
    tactic that the run recorded, and no two are of the same ones. If those that were tried often
    enough fit in the list, all of them are in it. The settings of the ranking need not be those
    of the run. Counts last for `2^64 - 1` attempts. -/
theorem rank_after (settings config : RankingSettings) (tree : Json) (ops : List Operation)
    (hempty : IsEmptyTree tree) (hreal : AllReal ops)
    (hroom : (submissions settings tree ops).length < UInt64.size)
    (fileKey nodeId : String) (now : Instant) (entries : List SuggestionEntry)
    (hrank : Recommendation.rank config (ProofState.ofJson (runAll settings tree ops)) fileKey
      nodeId now = some entries) :
    let made := submissions settings tree ops
    (∀ e ∈ entries, ∃ c : TacticClass, e.sourceCategory = some c.category ∧
        e.tacticKey = c.tacticKey ∧ e.sampleSize.toNat = (ofClass c made).length ∧
        e.successRate = successRate
          (UInt64.ofNat ((ofClass c made).countP fun a => a.succeeded)) e.sampleSize) ∧
      (entries.map fun e => (e.sourceCategory, e.tacticKey)).Nodup ∧
      ((triedOften config made).length ≤ config.limit → ∀ c ∈ triedOften config made,
        ∃ e ∈ entries, e.sourceCategory = some c.category ∧ e.tacticKey = c.tacticKey) := by
  intro made
  have hchronicled := allChronicled_run settings hempty hreal
  have htabulated := (counted_run settings hempty hreal).2
  obtain ⟨hnodup, hcounts, -⟩ := candidates_of_made hchronicled htabulated hroom fileKey nodeId
  obtain ⟨target, -, rfl⟩ := Option.map_eq_some_iff.mp hrank
  refine ⟨?_, nodup_source_rankCandidates hnodup, ?_⟩
  · intro e he
    obtain ⟨c, hc, rfl⟩ := candidate_of_mem_rankCandidates he
    exact ⟨c.tacticClass, rfl, rfl, (hcounts c hc).toNat_samples hroom, (hcounts c hc).rate⟩
  · intro hfew d hd
    have hperm := qualified_perm_triedOften hchronicled htabulated hroom config fileKey nodeId
    obtain ⟨c, hc, rfl⟩ := List.mem_map.mp (hperm.mem_iff.mpr hd)
    refine ⟨_, mem_rankCandidates_of_qualified ?_ hc, rfl, rfl⟩
    rw [← List.length_map, hperm.length_eq]
    exact hfew

/-- The last node of the run is ranked for: both classes that were tried are suggested. -/
theorem rank_after_scatteredRun :
    let made := submissions {} .null scatteredRun
    IsEmptyTree .null ∧ AllReal scatteredRun ∧ made.length < UInt64.size ∧
      (triedOften {} made).length = 2 ∧
      ∃ entries, Recommendation.rank {} (ProofState.ofJson (runAll {} .null scatteredRun))
          "Test.lean" "m" ⟨60, 0⟩ = some entries ∧
        (∀ e ∈ entries, ∃ c : TacticClass, e.sourceCategory = some c.category ∧
          e.tacticKey = c.tacticKey ∧ e.sampleSize.toNat = (ofClass c made).length ∧
          e.successRate = successRate
            (UInt64.ofNat ((ofClass c made).countP fun a => a.succeeded)) e.sampleSize) ∧
        (entries.map fun e => (e.sourceCategory, e.tacticKey)).Nodup ∧
        ∀ c ∈ triedOften {} made,
          ∃ e ∈ entries, e.sourceCategory = some c.category ∧ e.tacticKey = c.tacticKey := by
  intro made
  have hroom : made.length < UInt64.size := by decide +kernel
  have htwo : (triedOften {} made).length = 2 := by decide +kernel
  obtain ⟨entries, hrank⟩ := Option.isSome_iff_exists.mp
    (show (Recommendation.rank {} (ProofState.ofJson (runAll {} .null scatteredRun))
      "Test.lean" "m" ⟨60, 0⟩).isSome = true by decide +kernel)
  obtain ⟨hcounted, hnodup, hall⟩ := rank_after {} {} .null scatteredRun (Or.inr rfl)
    allReal_scatteredRun hroom "Test.lean" "m" ⟨60, 0⟩ entries hrank
  exact ⟨Or.inr rfl, allReal_scatteredRun, hroom, htwo, entries, hrank, hcounted, hnodup,
    hall (htwo.symm ▸ (by decide : 2 ≤ 5))⟩

end Operation

end ProofLedger
