import ProofLedger.Proofs.Json.Record
import ProofLedger.Proofs.Ranking.Pools
import ProofLedger.Proofs.Ranking.Rate
import ProofLedger.Recommendation

/-!
# Scores are finite

A score is cut to the unit range, and what is not finite counts zero, so no weights, however
odd, bring a score out of range. The raw score of a suggestion comes from a pattern that was read
from a document, or is a share of successes. Both are numbers, so every suggestion can be written.
-/

namespace ProofLedger

-- ── Numbers of a document ─────────────────────────────────────────────────────

namespace Json

/-- The fields of a record that opens from a well-formed value are well-formed. -/
theorem WellFormed.record? {v w : Json} (h : v.WellFormed) {names : List String} {r : Record}
    (hr : v.record? names = some r) {name : String} (hw : r name = some w) : w.WellFormed := by
  cases h with
  | object _ hfields =>
    cases hr
    exact hfields _ (Keyed.mem_of_find? hw)
  | @array items hitems =>
    unfold Json.record? at hr
    dsimp only at hr
    split at hr
    · cases hr
      exact hitems w (List.of_mem_zip (Keyed.mem_of_find? hw)).2
    · cases hr
  | _ => cases hr

theorem isFinite_of_asFloat? {v : Json} (h : v.WellFormed) {x : Float}
    (hx : asFloat? v = some x) : x.isFinite = true := by
  cases h with
  | float hfinite => cases hx; exact hfinite
  | int n =>
    unfold asFloat? at hx
    dsimp only at hx
    split at hx
    · split at hx
      · cases hx; exact Doubles.isFinite_toFloat _
      · cases hx
    · split at hx
      · cases hx; exact Doubles.isFinite_neg_toFloat _
      · cases hx
  | _ => cases hx

end Json

theorem PatternEntry.isFinite_of_ofJson? {v : Json} (h : v.WellFormed) {p : PatternEntry}
    (hp : ofJson? v = some p) : p.score.isFinite = true := by
  unfold ofJson? at hp
  simp only [Option.bind_eq_bind, Option.bind_eq_some_iff, Option.pure_def,
    Option.some.injEq] at hp
  obtain ⟨r, hr, _, -, _, -, _, -, _, -, _, -, score, hscore, _, -, _, -, rfl⟩ := hp
  obtain ⟨w, hw, hread⟩ := Option.bind_eq_some_iff.mp hscore
  exact Json.isFinite_of_asFloat? (h.record? hr hw) hread

-- ── Scores ────────────────────────────────────────────────────────────────────

/-- A double that was cut to the unit range is a number, whatever it was before. -/
theorem Arithmetic.isFinite_clamp (x : Float) : (double.clamp x).isFinite = true := by
  unfold Arithmetic.clamp
  split
  · next hfinite =>
    split
    · rfl
    · split
      · rfl
      · exact hfinite
  · rfl

/-- The suggestions for a target are of the given time, their scores are numbers, and their
    raw scores are those of candidates. -/
theorem mem_rankCandidates {settings : RankingSettings} {target : RankTarget} {now : Instant}
    {candidates : List (Candidate Float)} {e : SuggestionEntry}
    (h : e ∈ rankCandidates settings target now candidates) :
    e.generatedAt = now ∧ e.score.isFinite = true ∧
      ∃ c ∈ candidates, e.successRate = c.rawScore := by
  obtain ⟨scored, hscored, rfl⟩ := List.mem_map.mp h
  have hranked := List.mem_mergeSort.mp (List.mem_of_mem_take hscored)
  obtain ⟨c, hc, rfl⟩ := List.mem_map.mp hranked
  exact ⟨rfl, Arithmetic.isFinite_clamp _, c, (List.mem_filter.mp hc).1, rfl⟩

theorem Candidate.isFinite_rawScore {patterns : List PatternEntry}
    {stats : List (TacticClass × LocalStats)} (h : ∀ p ∈ patterns, p.score.isFinite = true)
    {c : Candidate Float} (hc : c ∈ collect patterns stats) : c.rawScore.isFinite = true := by
  rcases of_mem_collect hc with ⟨p, hp, tried, rfl⟩ | ⟨e, -, rfl⟩
  · exact h p hp
  · exact isFinite_successRate _ _

end ProofLedger
