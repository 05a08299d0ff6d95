import Mathlib.Data.List.Forall2
import Mathlib.Data.List.Nodup
import ProofLedger.Proofs.Ranking.Statistics
import ProofLedger.Ranking.Candidate

/-!
# Two pools of candidates

Candidates are drawn from the patterns and from what was tried on the obligation, and a class that
occurs in both must not count twice. The list of candidates is searched while it grows. But the
statistics have one entry for each class, so an entry finds its class only where a pattern has it,
and the growing list can be told at once (`foldl_adjoin`): the candidates of the patterns, and then
those of the classes that have none, each with the numbers of its own pool (`pooled_collect`).
-/

namespace ProofLedger

/-- The class of a pattern. -/
def PatternEntry.tacticClass (p : PatternEntry) : TacticClass := ⟨p.category, p.tacticKey⟩

-- ── Entries of the statistics ─────────────────────────────────────────────────

namespace LocalStats

variable {c : TacticClass} {s : LocalStats} {stats : List (TacticClass × LocalStats)}

/-- In the order of classes there is one entry for each class. -/
theorem Ordered.nodup (h : Ordered stats) : (stats.map (·.1)).Nodup := by
  refine List.pairwise_map.mpr (h.imp ?_)
  intro e f hbefore hsame
  rw [hsame] at hbefore
  exact TacticClass.not_before_self f.1 hbefore

theorem lookup_of_notMem (h : c ∉ stats.map (·.1)) : lookup c stats = none := by
  rw [lookup, Option.map_eq_none_iff, List.find?_eq_none]
  intro e he hclass
  exact h (List.mem_map.mpr ⟨e, he, beq_iff_eq.mp hclass⟩)

theorem lookup_of_mem (h : (stats.map (·.1)).Nodup) (hmem : (c, s) ∈ stats) :
    lookup c stats = some s := by
  induction stats with
  | nil => cases hmem
  | cons e rest ih =>
    obtain ⟨hfresh, hrest⟩ := List.nodup_cons.mp h
    rw [lookup_cons]
    rcases List.mem_cons.mp hmem with rfl | hmem
    · rw [if_pos rfl]
    · have hne : e.1 ≠ c := fun heq => hfresh (List.mem_map.mpr ⟨_, hmem, heq.symm⟩)
      rw [if_neg hne]
      exact ih hrest hmem

end LocalStats

-- ── The growing list ──────────────────────────────────────────────────────────

namespace Candidate

variable {patterns : List PatternEntry} {stats : List (TacticClass × LocalStats)}

theorem adjoin_eq (found : List (Candidate Float)) (e : TacticClass × LocalStats) :
    adjoin found e =
      if e.1 ∈ found.map (·.tacticClass) then found else found ++ [ofLocal e.1 e.2] := by
  have hknown : (found.any fun c => c.tacticClass == e.1) = true ↔
      e.1 ∈ found.map (·.tacticClass) := by
    rw [List.any_eq_true, List.mem_map]
    exact exists_congr fun c => and_congr_right fun _ => beq_iff_eq
  rw [adjoin]
  exact if_congr hknown rfl rfl

/-- The entries that no pattern has the class of. -/
def unknown (known : List TacticClass) (stats : List (TacticClass × LocalStats)) :
    List (TacticClass × LocalStats) :=
  stats.filter fun e => e.1 ∉ known

/-- What was appended does not hide a later entry, since that is of another class. -/
theorem foldl_adjoin (h : (stats.map (·.1)).Nodup) (found : List (Candidate Float)) :
    stats.foldl adjoin found =
      found ++ (unknown (found.map (·.tacticClass)) stats).map fun e => ofLocal e.1 e.2 := by
  induction stats generalizing found with
  | nil => exact (List.append_nil found).symm
  | cons e rest ih =>
    obtain ⟨hfresh, hrest⟩ := List.nodup_cons.mp h
    rw [List.foldl_cons, ih hrest, adjoin_eq]
    by_cases hknown : e.1 ∈ found.map (·.tacticClass)
    · have hskip : unknown (found.map (·.tacticClass)) (e :: rest) =
          unknown (found.map (·.tacticClass)) rest :=
        List.filter_cons_of_neg (by simpa using hknown)
      rw [if_pos hknown, hskip]
    · have htake : unknown (found.map (·.tacticClass)) (e :: rest) =
          e :: unknown (found.map (·.tacticClass)) rest :=
        List.filter_cons_of_pos (by simpa using hknown)
      have hlater : unknown ((found ++ [ofLocal e.1 e.2]).map (·.tacticClass)) rest =
          unknown (found.map (·.tacticClass)) rest := by
        refine List.filter_congr fun f hf => ?_
        have hne : f.1 ≠ e.1 := fun heq => hfresh (List.mem_map.mpr ⟨f, hf, heq⟩)
        have hclass : (ofLocal e.1 e.2).tacticClass = e.1 := rfl
        rw [List.map_append, List.map_singleton, hclass, decide_eq_decide, List.mem_append,
          List.mem_singleton, or_iff_left hne]
      rw [if_neg hknown, htake, hlater, List.append_assoc]
      rfl

theorem collect_eq (h : (stats.map (·.1)).Nodup) (patterns : List PatternEntry) :
    collect patterns stats =
      (patterns.map fun p => ofPattern p (LocalStats.lookup p.tacticClass stats)) ++
        (unknown (patterns.map (·.tacticClass)) stats).map fun e => ofLocal e.1 e.2 := by
  have hclasses : (patterns.map fun p =>
      ofPattern p (LocalStats.lookup p.tacticClass stats)).map (·.tacticClass) =
        patterns.map (·.tacticClass) := by
    rw [List.map_map]
    rfl
  rw [← hclasses]
  exact foldl_adjoin h _

/-- A candidate is that of a pattern or that of an entry, whatever the statistics are. -/
theorem of_mem_collect {c : Candidate Float} (hc : c ∈ collect patterns stats) :
    (∃ p ∈ patterns, ∃ tried, c = ofPattern p tried) ∨ ∃ e ∈ stats, c = ofLocal e.1 e.2 := by
  have hfold : ∀ (entries : List (TacticClass × LocalStats)) (found : List (Candidate Float)),
      c ∈ entries.foldl adjoin found → c ∈ found ∨ ∃ e ∈ entries, c = ofLocal e.1 e.2 := by
    intro entries
    induction entries with
    | nil => exact fun _ => Or.inl
    | cons e rest ih =>
      intro found hmem
      rcases ih _ hmem with hfound | ⟨f, hf, hsame⟩
      · rw [adjoin_eq] at hfound
        split at hfound
        · exact Or.inl hfound
        · rcases List.mem_append.mp hfound with hfound | hnew
          · exact Or.inl hfound
          · exact Or.inr ⟨e, List.mem_cons_self, List.mem_singleton.mp hnew⟩
      · exact Or.inr ⟨f, List.mem_cons_of_mem e hf, hsame⟩
  rcases hfold stats _ hc with hknown | hlocal
  · obtain ⟨p, hp, hsame⟩ := List.mem_map.mp hknown
    exact Or.inl ⟨p, hp, _, hsame.symm⟩
  · exact Or.inr hlocal

-- ── What a candidate has from its pool ────────────────────────────────────────

/-- A candidate with the numbers of a pattern. What was tried on the obligation stands beside them,
    and is zero if nothing was. -/
structure IsOfPattern (stats : List (TacticClass × LocalStats)) (p : PatternEntry)
    (c : Candidate Float) : Prop where
  tacticClass : c.tacticClass = p.tacticClass
  rawScore : c.rawScore = p.score
  sampleSize : c.sampleSize = p.sampleSize
  lastSeen : c.lastSeen = some p.lastUpdated
  goalSignature : c.goalSignature = p.goalSignature
  tried : ∀ s, (p.tacticClass, s) ∈ stats → c.localStats = s
  untried : p.tacticClass ∉ stats.map (·.1) → c.localStats = ⟨0, 0, none⟩

/-- A candidate with the numbers of an entry of the statistics. -/
structure IsOfEntry (e : TacticClass × LocalStats) (c : Candidate Float) : Prop where
  tacticClass : c.tacticClass = e.1
  rawScore : c.rawScore = successRate e.2.successes e.2.attempts
  sampleSize : c.sampleSize = e.2.attempts
  lastSeen : c.lastSeen = e.2.lastAttemptAt
  goalSignature : c.goalSignature = none
  localStats : c.localStats = e.2

/-- Which candidates two pools have together. -/
structure Pooled (patterns : List PatternEntry) (stats : List (TacticClass × LocalStats))
    (candidates : List (Candidate Float)) : Prop where
  /-- a class that occurs in a pool has one candidate, and no other class has any -/
  once : ∀ d, (candidates.map (·.tacticClass)).count d =
    if d ∈ patterns.map (·.tacticClass) ∨ d ∈ stats.map (·.1) then 1 else 0
  /-- first come those of the patterns in their order, then those of the classes that have no
      pattern in the order of classes -/
  parts : ∃ known new, candidates = known ++ new ∧
    List.Forall₂ (IsOfPattern stats) patterns known ∧
    List.Forall₂ IsOfEntry (stats.filter fun e => e.1 ∉ patterns.map (·.tacticClass)) new ∧
    new.Pairwise fun c d => c.tacticClass.before d.tacticClass = true

theorem isOfPattern_ofPattern (h : (stats.map (·.1)).Nodup) (p : PatternEntry) :
    IsOfPattern stats p (ofPattern p (LocalStats.lookup p.tacticClass stats)) where
  tacticClass := rfl
  rawScore := rfl
  sampleSize := rfl
  lastSeen := rfl
  goalSignature := rfl
  tried s hs := by
    rw [LocalStats.lookup_of_mem h hs]
    rfl
  untried hnone := by
    rw [LocalStats.lookup_of_notMem hnone]
    rfl

theorem isOfEntry_ofLocal (e : TacticClass × LocalStats) : IsOfEntry e (ofLocal e.1 e.2) :=
  ⟨rfl, rfl, rfl, rfl, rfl, rfl⟩

/-- The classes of the candidates: those of the patterns, then those that have none. -/
theorem classes_collect (h : (stats.map (·.1)).Nodup) (patterns : List PatternEntry) :
    (collect patterns stats).map (·.tacticClass) =
      patterns.map (·.tacticClass) ++
        (stats.map (·.1)).filter fun d => d ∉ patterns.map (·.tacticClass) := by
  rw [collect_eq h, List.map_append, List.map_map, List.map_map, List.filter_map]
  rfl

theorem mem_classes_collect (h : (stats.map (·.1)).Nodup) (patterns : List PatternEntry)
    (d : TacticClass) : d ∈ (collect patterns stats).map (·.tacticClass) ↔
      d ∈ patterns.map (·.tacticClass) ∨ d ∈ stats.map (·.1) := by
  rw [classes_collect h, List.mem_append, List.mem_filter, decide_eq_true_eq]
  by_cases hknown : d ∈ patterns.map (·.tacticClass)
  · rw [or_iff_left (fun hnew => hnew.2 hknown), or_iff_left_of_imp fun _ => hknown]
  · rw [and_iff_left hknown]

theorem nodup_classes_collect (hpatterns : (patterns.map (·.tacticClass)).Nodup)
    (h : (stats.map (·.1)).Nodup) : ((collect patterns stats).map (·.tacticClass)).Nodup := by
  rw [classes_collect h]
  refine hpatterns.append (List.Nodup.filter _ h) fun d hknown hnew => ?_
  exact of_decide_eq_true (List.mem_filter.mp hnew).2 hknown

/-- Patterns of different classes and statistics with an entry for each class have one candidate
    for every class of either, and nothing is lost or counted twice. -/
theorem pooled_collect (hpatterns : (patterns.map (·.tacticClass)).Nodup)
    (hstats : LocalStats.Ordered stats) : Pooled patterns stats (collect patterns stats) where
  once d := by
    rw [(nodup_classes_collect hpatterns hstats.nodup).count]
    exact if_congr (mem_classes_collect hstats.nodup patterns d) rfl rfl
  parts := by
    refine ⟨_, _, collect_eq hstats.nodup patterns, ?_, ?_, ?_⟩
    · exact List.forall₂_map_right_iff.mpr
        (List.forall₂_same.mpr fun p _ => isOfPattern_ofPattern hstats.nodup p)
    · exact List.forall₂_map_right_iff.mpr
        (List.forall₂_same.mpr fun e _ => isOfEntry_ofLocal e)
    · exact List.pairwise_map.mpr (hstats.filter _)

/-- Two patterns, the first of which is of a class that was tried too. -/
def twoPatterns : List PatternEntry :=
  [⟨"tactic_failed:simp", .tacticFailed, "simp", 3, 1, 0.75, ⟨60, 0⟩, some "n + 0 = n"⟩,
    ⟨"other:ring", .other, "ring", 0, 2, 0.0, ⟨50, 0⟩, none⟩]

/-- What was tried: a class with a pattern, and one beside it that has none. -/
def threeEntries : List (TacticClass × LocalStats) :=
  [(⟨.tacticFailed, "ring"⟩, ⟨1, 2, some ⟨40, 0⟩⟩),
    (⟨.tacticFailed, "simp"⟩, ⟨0, 1, some ⟨30, 0⟩⟩), (⟨.other, "omega"⟩, ⟨0, 3, some ⟨20, 0⟩⟩)]

theorem pooled_collect_threeEntries :
    (twoPatterns.map (·.tacticClass)).Nodup ∧ LocalStats.Ordered threeEntries ∧
      Pooled twoPatterns threeEntries (collect twoPatterns threeEntries) := by
  have hpatterns : (twoPatterns.map (·.tacticClass)).Nodup := by decide
  have hstats : LocalStats.Ordered threeEntries := by
    unfold LocalStats.Ordered
    decide +kernel
  exact ⟨hpatterns, hstats, pooled_collect hpatterns hstats⟩

end Candidate

end ProofLedger
