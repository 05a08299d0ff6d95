import Mathlib.Data.List.Nodup
import ProofLedger.Proofs.Ledger.Patterns
import ProofLedger.Ranking.Score

/-!
# The order of suggestions

Suggestions are compared by seven keys in turn, five of which descend. Whatever the scores are, the
comparison is a total order if the numbers are totally ordered (`transCmp_compareScored`), and only
candidates of the same class are equal in it (`tacticClass_eq_of_compareScored`). So candidates of
different classes have one ranking, in whatever order they come (`rankAll_eq_of_perm`), and a limit
cuts it between the best ones and the others (`ranked_rankAll`).

Doubles are totally ordered by their bits, what is not a number included.
-/

namespace ProofLedger

variable {α β : Type}

-- ── Comparisons ───────────────────────────────────────────────────────────────

/-- What is compared by a key is ordered if the keys are. -/
theorem transCmp_on {cmp : β → β → Ordering} (h : Std.TransCmp cmp) (key : α → β) :
    Std.TransCmp fun a b => cmp (key a) (key b) where
  eq_swap := h.eq_swap
  isLE_trans := h.isLE_trans

/-- What is compared by a descending key is ordered if the keys are. -/
theorem transCmp_descending {cmp : β → β → Ordering} (h : Std.TransCmp cmp) (key : α → β) :
    Std.TransCmp fun a b => cmp (key b) (key a) where
  eq_swap := h.eq_swap
  isLE_trans hab hbc := h.isLE_trans hbc hab

/-- Ties of an ordered comparison are broken by another one. -/
theorem transCmp_then {cmp cmp' : α → α → Ordering} (h : Std.TransCmp cmp)
    (h' : Std.TransCmp cmp') : Std.TransCmp fun a b => (cmp a b).then (cmp' a b) :=
  inferInstanceAs (Std.TransCmp (compareLex cmp cmp'))

namespace Arithmetic

variable {N : Arithmetic α} {w : Weights α} {minSampleSize : Nat} {target : RankTarget}
  {now : Instant} {candidates candidates' : List (Candidate α)} {a b s : Scored α}

/-- Suggestions are totally ordered if the numbers are. -/
theorem transCmp_compareScored (h : Std.TransCmp N.compare) : Std.TransCmp N.compareScored :=
  transCmp_then (transCmp_descending Bool.instTransOrd Scored.categoryMatch) <|
  transCmp_then (transCmp_descending h Scored.score) <|
  transCmp_then (transCmp_descending h fun s : Scored α => s.candidate.rawScore) <|
  transCmp_then (transCmp_descending UInt64.instTransOrd
    fun s : Scored α => s.candidate.sampleSize) <|
  transCmp_then (transCmp_descending UInt64.instTransOrd
    fun s : Scored α => s.candidate.localStats.attempts) <|
  transCmp_then (transCmp_on String.instTransOrd fun s : Scored α => s.candidate.tacticKey)
    (transCmp_on String.instTransOrd fun s : Scored α => s.candidate.category.name)

/-- Doubles are compared by their place among all doubles. -/
theorem transCmp_double : Std.TransCmp double.compare := transCmp_on Int.instTransOrd floatRank

/-- The last two keys tell classes apart. -/
theorem tacticClass_eq_of_compareScored (h : N.compareScored a b = .eq) :
    a.candidate.tacticClass = b.candidate.tacticClass := by
  simp only [compareScored, Ordering.then_eq_eq, Std.compare_eq_iff_eq] at h
  obtain ⟨-, -, -, -, -, hkey, hname⟩ := h
  rw [Candidate.tacticClass, Candidate.tacticClass, hkey, Category.name_injective hname]

-- ── The first two keys ────────────────────────────────────────────────────────

/-- Nothing comes before what matches the category unless it matches too. -/
theorem categoryMatch_of_isLE (h : (N.compareScored a b).isLE = true)
    (hb : b.categoryMatch = true) : a.categoryMatch = true := by
  have hmatch := (Ordering.isLE_then_iff_and.mp h).1
  rw [hb] at hmatch
  revert hmatch
  cases a.categoryMatch <;> decide

/-- In a part no score comes before a higher one. -/
theorem score_of_isLE (h : (N.compareScored a b).isLE = true)
    (hsame : a.categoryMatch = b.categoryMatch) : (N.compare b.score a.score).isLE = true := by
  have hmatch : Ord.compare b.categoryMatch a.categoryMatch = .eq :=
    Std.compare_eq_iff_eq.mpr hsame.symm
  rw [compareScored, hmatch, Ordering.eq_then] at h
  exact (Ordering.isLE_then_iff_and.mp h).1

-- ── Rankings ──────────────────────────────────────────────────────────────────

/-- The candidates with enough samples, with their scores. -/
def scoreQualified (N : Arithmetic α) (w : Weights α) (minSampleSize : Nat) (target : RankTarget)
    (now : Instant) (candidates : List (Candidate α)) : List (Scored α) :=
  (candidates.filter fun c => minSampleSize ≤ c.sampleSize.toNat).map (N.score w target now)

/-- What makes a list of scored candidates a ranking of them. -/
structure Ranked (N : Arithmetic α) (scored ranking : List (Scored α)) : Prop where
  perm : ranking.Perm scored
  ordered : ranking.Pairwise fun a b => (N.compareScored a b).isLE = true
  /-- What compares equal stays as it was. -/
  stable : ∀ a b, [a, b].Sublist scored → N.compareScored a b = .eq → [a, b].Sublist ranking
  exactFirst : ranking.Pairwise fun a b => b.categoryMatch = true → a.categoryMatch = true
  descending : ranking.Pairwise fun a b =>
    a.categoryMatch = b.categoryMatch → (N.compare b.score a.score).isLE = true
  /-- Nothing that a limit leaves out comes before something that it keeps. -/
  best : ∀ limit, ∀ kept ∈ ranking.take limit, ∀ dropped ∈ ranking.drop limit,
    N.compareScored dropped kept ≠ .lt

theorem rankAll_eq_mergeSort : N.rankAll w minSampleSize target now candidates =
    (N.scoreQualified w minSampleSize target now candidates).mergeSort
      fun a b => (N.compareScored a b).isLE := by
  have hle : ∀ o : Ordering, (o != .gt) = o.isLE := by decide
  simp only [rankAll, scoreQualified, hle]

/-- In any totally ordered numbers the scored candidates are ranked. -/
theorem ranked_rankAll (h : Std.TransCmp N.compare) :
    N.Ranked (N.scoreQualified w minSampleSize target now candidates)
      (N.rankAll w minSampleSize target now candidates) := by
  have hcmp := transCmp_compareScored h
  rw [rankAll_eq_mergeSort]
  generalize N.scoreQualified w minSampleSize target now candidates = scored
  have htrans : ∀ a b c : Scored α, (N.compareScored a b).isLE = true →
      (N.compareScored b c).isLE = true → (N.compareScored a c).isLE = true :=
    fun _ _ _ => hcmp.isLE_trans
  have htotal : ∀ a b : Scored α,
      ((N.compareScored a b).isLE || (N.compareScored b a).isLE) = true := by
    intro a b
    rw [hcmp.eq_swap]
    cases N.compareScored b a <;> rfl
  have hordered := List.pairwise_mergeSort htrans htotal scored
  exact {
    perm := List.mergeSort_perm scored _
    ordered := hordered
    stable := fun a b hab heq => List.pair_sublist_mergeSort htrans htotal (by rw [heq]; rfl) hab
    exactFirst := hordered.imp categoryMatch_of_isLE
    descending := hordered.imp score_of_isLE
    best := fun limit kept hkept dropped hdropped => by
      rw [← List.take_append_drop limit (scored.mergeSort _)] at hordered
      exact Std.OrientedCmp.not_lt_of_isLE
        ((List.pairwise_append.mp hordered).2.2 kept hkept dropped hdropped) }

theorem mem_rankAll : s ∈ N.rankAll w minSampleSize target now candidates ↔
    ∃ c ∈ candidates, minSampleSize ≤ c.sampleSize.toNat ∧ N.score w target now c = s := by
  rw [rankAll_eq_mergeSort, List.mem_mergeSort, scoreQualified]
  simp only [List.mem_map, List.mem_filter, decide_eq_true_eq, and_assoc]

/-- Candidates of different classes are ranked in the same way in whatever order they come. -/
theorem rankAll_eq_of_perm (h : Std.TransCmp N.compare) (hperm : candidates.Perm candidates')
    (hnodup : (candidates.map (·.tacticClass)).Nodup) :
    N.rankAll w minSampleSize target now candidates =
      N.rankAll w minSampleSize target now candidates' := by
  have hcmp := transCmp_compareScored h
  have hranked : ∀ cs, N.Ranked (N.scoreQualified w minSampleSize target now cs)
      (N.rankAll w minSampleSize target now cs) := fun _ => ranked_rankAll h
  have hscored : (N.scoreQualified w minSampleSize target now candidates).Perm
      (N.scoreQualified w minSampleSize target now candidates') := (hperm.filter _).map _
  refine List.Perm.eq_of_pairwise ?_ (hranked candidates).ordered (hranked candidates').ordered
    ((hranked candidates).perm.trans (hscored.trans (hranked candidates').perm.symm))
  -- what compares equal both ways is one and the same candidate
  intro a b ha hb hab hba
  obtain ⟨c, hc, -, rfl⟩ := mem_rankAll.mp ha
  obtain ⟨d, hd, -, rfl⟩ := mem_rankAll.mp hb
  have hclass : c.tacticClass = d.tacticClass :=
    tacticClass_eq_of_compareScored (Std.OrientedCmp.isLE_antisymm hab hba)
  rw [List.inj_on_of_nodup_map hnodup hc (hperm.mem_iff.mpr hd) hclass]

/-- How candidates are ranked for a target, and that it does not matter how they come. -/
structure RanksFor (N : Arithmetic α) (target : RankTarget) (now : Instant) : Prop where
  ranked : ∀ w minSampleSize candidates,
    N.Ranked (N.scoreQualified w minSampleSize target now candidates)
      (N.rankAll w minSampleSize target now candidates)
  unordered : ∀ w minSampleSize candidates candidates',
    candidates.Perm candidates' → (candidates.map (·.tacticClass)).Nodup →
      N.rankAll w minSampleSize target now candidates =
        N.rankAll w minSampleSize target now candidates'

theorem ranksFor (h : Std.TransCmp N.compare) (target : RankTarget) (now : Instant) :
    N.RanksFor target now where
  ranked _ _ _ := ranked_rankAll h
  unordered _ _ _ _ hperm hnodup := rankAll_eq_of_perm h hperm hnodup

end Arithmetic

-- ── Suggestions ───────────────────────────────────────────────────────────────

variable {settings : RankingSettings} {target : RankTarget} {now : Instant}

/-- A suggestion is of the target's own category. -/
def SuggestionEntry.IsExact (target : RankTarget) (e : SuggestionEntry) : Prop :=
  e.sourceCategory = some target.category

theorem isExact_ofScored {candidates : List (Candidate Float)} {s : Scored Float}
    (hs : s ∈ Arithmetic.double.rankAll settings.weights settings.minSampleSize target now
      candidates) :
    (SuggestionEntry.ofScored target now s).IsExact target ↔ s.categoryMatch = true := by
  obtain ⟨c, -, -, rfl⟩ := Arithmetic.mem_rankAll.mp hs
  rw [SuggestionEntry.IsExact, SuggestionEntry.ofScored, Arithmetic.score, beq_iff_eq,
    Option.some.injEq]

/-- Suggestions of the target's own category come first, and within each part scores descend. -/
theorem pairwise_rankCandidates (settings : RankingSettings) (target : RankTarget) (now : Instant)
    (candidates : List (Candidate Float)) :
    (rankCandidates settings target now candidates).Pairwise fun e f =>
      (f.IsExact target → e.IsExact target) ∧
      ((e.IsExact target ↔ f.IsExact target) → floatRank f.score ≤ floatRank e.score) := by
  have hranked := (Arithmetic.ranksFor Arithmetic.transCmp_double target now).ranked
    settings.weights settings.minSampleSize candidates
  have hboth := hranked.exactFirst.and hranked.descending
  refine List.pairwise_map.mpr ((hboth.sublist (List.take_sublist _ _)).imp_of_mem ?_)
  intro a b ha hb hab
  rw [isExact_ofScored (List.mem_of_mem_take ha), isExact_ofScored (List.mem_of_mem_take hb)]
  exact ⟨hab.1, fun hsame => Std.isLE_compare.mp (hab.2 (Bool.eq_iff_iff.mpr hsame))⟩

/-- The suggestions are the first ones of a ranking of all candidates with enough samples. Whatever
    the numbers are, and the scores that are computed in them, as long as numbers are totally
    ordered, nothing that is left out comes before what is kept, and candidates of different classes
    may come in any order. -/
theorem rankCandidates_selects_best (target : RankTarget) (now : Instant) :
    (∀ {α : Type} (N : Arithmetic α), Std.TransCmp N.compare → N.RanksFor target now) ∧
    Arithmetic.double.RanksFor target now ∧
    ∀ (settings : RankingSettings) (candidates : List (Candidate Float)),
      (∀ limit, rankCandidates { settings with limit } target now candidates =
        ((Arithmetic.double.rankAll settings.weights settings.minSampleSize target now
          candidates).take limit).map (SuggestionEntry.ofScored target now)) ∧
      (∀ limit more, limit ≤ more → rankCandidates { settings with limit } target now candidates <+:
        rankCandidates { settings with limit := more } target now candidates) ∧
      ((rankCandidates settings target now candidates).Pairwise fun e f =>
        (f.IsExact target → e.IsExact target) ∧
        ((e.IsExact target ↔ f.IsExact target) → floatRank f.score ≤ floatRank e.score)) ∧
      ∀ candidates', candidates.Perm candidates' → (candidates.map (·.tacticClass)).Nodup →
        rankCandidates settings target now candidates =
          rankCandidates settings target now candidates' := by
  have hdouble := Arithmetic.ranksFor Arithmetic.transCmp_double target now
  refine ⟨fun N h => Arithmetic.ranksFor h target now, hdouble, fun settings candidates =>
    ⟨fun limit => rfl, ?_, pairwise_rankCandidates settings target now candidates, ?_⟩⟩
  · intro limit more hle
    exact (List.take_prefix_take_left hle).map _
  · intro candidates' hperm hnodup
    rw [rankCandidates, rankCandidates, hdouble.unordered _ _ _ _ hperm hnodup]

/-- Candidates whose raw scores are both zeros and no number. -/
def oddCandidates : List (Candidate Float) :=
  [⟨.other, "aesop", -0.0, 2, none, {}, none⟩, ⟨.other, "ring", 0.0, 2, none, {}, none⟩,
    ⟨.typeMismatch, "simp", 0.0 / 0.0, 1, none, {}, none⟩]

theorem rankCandidates_reverse_oddCandidates :
    let target : RankTarget := ⟨"n", .typeMismatch, none⟩
    Std.TransCmp Arithmetic.double.compare ∧ Arithmetic.double.RanksFor target ⟨0, 0⟩ ∧
      rankCandidates { limit := 1 } target ⟨0, 0⟩ oddCandidates <+:
        rankCandidates { limit := 2 } target ⟨0, 0⟩ oddCandidates ∧
      (oddCandidates.map (·.tacticClass)).Nodup ∧
      rankCandidates {} target ⟨0, 0⟩ oddCandidates =
        rankCandidates {} target ⟨0, 0⟩ oddCandidates.reverse := by
  intro target
  have hnodup : (oddCandidates.map (·.tacticClass)).Nodup := by decide
  obtain ⟨hany, -, hsuggested⟩ := rankCandidates_selects_best target ⟨0, 0⟩
  obtain ⟨-, hprefix, -, hunordered⟩ := hsuggested {} oddCandidates
  exact ⟨Arithmetic.transCmp_double, hany _ Arithmetic.transCmp_double,
    hprefix 1 2 (by decide), hnodup, hunordered _ (List.reverse_perm _).symm hnodup⟩

end ProofLedger
