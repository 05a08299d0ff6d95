import Mathlib.Algebra.Order.Field.Rat
import Mathlib.Tactic.Linarith
import Mathlib.Tactic.Positivity
import Mathlib.Tactic.Ring
import ProofLedger.Ranking.Score

/-!
# The bonus for a signature

A candidate that closed a goal like the target's has one more term in its weighted sum. In exact
numbers the sums of two candidates that are alike but for this differ by the weight of the term
(`weightedSum_of_matches`). But a score is a sum that was cut at one, and after the scores no key
looks at signatures. So the bonus decides as long as the sum it is added to is below one, and where
that sum is one or more both scores are one and the tactic keys decide (`signature_bonus`).
-/

namespace ProofLedger

-- ── Exact numbers ─────────────────────────────────────────────────────────────

/-- The arithmetic of rational numbers, which does not round. The logarithm in the confidence that
    samples give is not rational, so any function may stand for it. -/
def Arithmetic.exact (confidence : UInt64 → ℚ) : Arithmetic ℚ where
  zero := 0
  one := 1
  half := 1 / 2
  add := (· + ·)
  mul := (· * ·)
  below x y := decide (x < y)
  isFinite _ := true
  compare x y := Ord.compare x y
  confidence := confidence
  freshness ageMs := 1 / (1 + ageMs / 604800000)
  rate successes total := if total = 0 then 0 else successes.toNat / total.toNat

/-- No weight is negative. -/
structure Weights.NonNegative (w : Weights ℚ) : Prop where
  global : 0 ≤ w.global
  categoryMatch : 0 ≤ w.categoryMatch
  sampleConfidence : 0 ≤ w.sampleConfidence
  recency : 0 ≤ w.recency
  nodeLocal : 0 ≤ w.nodeLocal
  goalSignature : 0 ≤ w.goalSignature

/-- What two candidates have in common that differ in no more than tactic key and signature. -/
structure Candidate.Alike {α : Type} (a b : Candidate α) : Prop where
  category : a.category = b.category
  rawScore : a.rawScore = b.rawScore
  sampleSize : a.sampleSize = b.sampleSize
  lastSeen : a.lastSeen = b.lastSeen
  localStats : a.localStats = b.localStats

namespace Arithmetic

variable {confidence : UInt64 → ℚ} {w t : Weights ℚ} {target : RankTarget} {now : Instant}
  {signature : String} {a b c : Candidate ℚ}

/-- The sum that a score is cut from. -/
def weightedSum (confidence : UInt64 → ℚ) (w : Weights ℚ) (target : RankTarget) (now : Instant)
    (c : Candidate ℚ) : ℚ :=
  (exact confidence).blend w ((exact confidence).terms target now c)

theorem score_eq_clamp : ((exact confidence).score w target now c).score =
    (exact confidence).clamp (weightedSum confidence w target now c) := rfl

theorem clamp_of_unit {x : ℚ} (hlow : 0 ≤ x) (hhigh : x ≤ 1) : (exact confidence).clamp x = x := by
  have hzero : (exact confidence).below x (exact confidence).zero = false :=
    decide_eq_false (not_lt.mpr hlow)
  have hone : (exact confidence).below (exact confidence).one x = false :=
    decide_eq_false (not_lt.mpr hhigh)
  rw [clamp, hzero, hone]
  rfl

theorem clamp_of_one_le {x : ℚ} (h : 1 ≤ x) : (exact confidence).clamp x = 1 := by
  rcases h.eq_or_lt with rfl | hlt
  · exact clamp_of_unit zero_le_one le_rfl
  · have hzero : (exact confidence).below x (exact confidence).zero = false :=
      decide_eq_false (not_lt.mpr (zero_le_one.trans h))
    have hone : (exact confidence).below (exact confidence).one x = true := decide_eq_true hlt
    rw [clamp, hzero, hone]
    rfl

-- ── Sums ──────────────────────────────────────────────────────────────────────

theorem blend_exact : (exact confidence).blend w t =
    w.global * t.global + w.categoryMatch * t.categoryMatch +
      w.sampleConfidence * t.sampleConfidence + w.recency * t.recency +
      w.nodeLocal * t.nodeLocal + w.goalSignature * t.goalSignature := rfl

theorem blend_nonneg (hw : w.NonNegative) (ht : t.NonNegative) :
    0 ≤ (exact confidence).blend w t := by
  have hglobal := mul_nonneg hw.global ht.global
  have hcategory := mul_nonneg hw.categoryMatch ht.categoryMatch
  have hsamples := mul_nonneg hw.sampleConfidence ht.sampleConfidence
  have hrecency := mul_nonneg hw.recency ht.recency
  have hlocal := mul_nonneg hw.nodeLocal ht.nodeLocal
  have hsignature := mul_nonneg hw.goalSignature ht.goalSignature
  rw [blend_exact]
  positivity

theorem indicator_nonneg (x : Bool) : 0 ≤ (exact confidence).indicator x := by
  cases x
  · exact le_rfl
  · exact zero_le_one

theorem recency_nonneg (lastSeen : Option Instant) :
    0 ≤ (exact confidence).recency lastSeen now := by
  cases lastSeen with
  | none => exact le_rfl
  | some seen =>
    show (0 : ℚ) ≤ 1 / (1 + ((now.millisSince seen).toNat : ℚ) / 604800000)
    positivity

theorem localConfidence_nonneg (h : ∀ n, 0 ≤ confidence n) (s : LocalStats) :
    0 ≤ (exact confidence).localConfidence s := by
  rw [localConfidence]
  split
  · exact le_rfl
  · next hsome =>
    have hrate : 0 ≤ (exact confidence).rate s.successes s.attempts := by
      show (0 : ℚ) ≤ if s.attempts = 0 then 0
        else (s.successes.toNat : ℚ) / s.attempts.toNat
      rw [if_neg hsome]
      positivity
    show (0 : ℚ) ≤ 1 / 2 * confidence s.attempts +
      1 / 2 * (exact confidence).rate s.successes s.attempts
    have hconfidence := h s.attempts
    positivity

theorem terms_nonneg (h : ∀ n, 0 ≤ confidence n) (hraw : 0 ≤ c.rawScore) :
    ((exact confidence).terms target now c).NonNegative where
  global := hraw
  categoryMatch := indicator_nonneg _
  sampleConfidence := h c.sampleSize
  recency := recency_nonneg c.lastSeen
  nodeLocal := localConfidence_nonneg h c.localStats
  goalSignature := indicator_nonneg _

-- ── The bonus ─────────────────────────────────────────────────────────────────

theorem signatureMatches_iff (htarget : target.goalSignature = some signature) :
    signatureMatches target c = true ↔ c.goalSignature = some signature := by
  rw [signatureMatches, htarget]
  cases c.goalSignature with
  | none => exact ⟨nofun, nofun⟩
  | some own => rw [beq_iff_eq, Option.some.injEq]

/-- A match adds the weight of signatures to the sum, and nothing else tells the two apart. -/
theorem weightedSum_of_matches (htarget : target.goalSignature = some signature)
    (halike : a.Alike b) (ha : a.goalSignature = some signature)
    (hb : b.goalSignature ≠ some signature) :
    weightedSum confidence w target now a =
      weightedSum confidence w target now b + w.goalSignature := by
  have hmatch : signatureMatches target a = true := (signatureMatches_iff htarget).mpr ha
  have hother : signatureMatches target b = false :=
    Bool.eq_false_iff.mpr fun h => hb ((signatureMatches_iff htarget).mp h)
  have hone : ((exact confidence).terms target now a).goalSignature = 1 := by
    rw [terms, hmatch]
    rfl
  have hzero : ((exact confidence).terms target now b).goalSignature = 0 := by
    rw [terms, hother]
    rfl
  rw [weightedSum, weightedSum, blend_exact, blend_exact, hone, hzero]
  simp only [terms, halike.category, halike.rawScore, halike.sampleSize, halike.lastSeen,
    halike.localStats]
  ring

/-- Of two candidates of one category a higher score comes first. -/
theorem compareScored_of_score_lt {x y : Scored ℚ} (hsame : x.categoryMatch = y.categoryMatch)
    (hscore : y.score < x.score) : (exact confidence).compareScored x y = .lt := by
  have hmatch : Ord.compare y.categoryMatch x.categoryMatch = .eq :=
    Std.compare_eq_iff_eq.mpr hsame.symm
  have hfirst : (exact confidence).compare y.score x.score = .lt := compare_lt_iff_lt.mpr hscore
  rw [compareScored, hmatch, hfirst]
  rfl

/-- Candidates that are alike and have one score are told apart by their keys alone. -/
theorem compareScored_of_score_eq (halike : a.Alike b)
    (hscore : ((exact confidence).score w target now a).score =
      ((exact confidence).score w target now b).score) :
    (exact confidence).compareScored ((exact confidence).score w target now a)
      ((exact confidence).score w target now b) = Ord.compare a.tacticKey b.tacticKey := by
  have hself : ∀ x : ℚ, (exact confidence).compare x x = .eq := fun x => compare_eq_iff_eq.mpr rfl
  rw [compareScored, hscore, hself]
  simp only [score, halike.category, halike.rawScore, halike.sampleSize, halike.localStats, hself,
    Std.compare_self, Ordering.eq_then, Ordering.then_eq]

/-- The bonus of a match is strict as long as the other candidate's sum is below one. Where that is
    one or more, both scores are one, and the candidates come in the order of their keys. -/
theorem signature_bonus (hconfidence : ∀ n, 0 ≤ confidence n) (hw : w.NonNegative)
    (hbonus : 0 < w.goalSignature) (htarget : target.goalSignature = some signature)
    (halike : a.Alike b) (hraw : 0 ≤ b.rawScore) (ha : a.goalSignature = some signature)
    (hb : b.goalSignature ≠ some signature) (now : Instant) :
    let scored := (exact confidence).score w target now
    (weightedSum confidence w target now b < 1 →
      (scored b).score < (scored a).score ∧
        (exact confidence).compareScored (scored a) (scored b) = .lt) ∧
    (1 ≤ weightedSum confidence w target now b →
      (scored a).score = 1 ∧ (scored b).score = 1 ∧
        (exact confidence).compareScored (scored a) (scored b) =
          Ord.compare a.tacticKey b.tacticKey) := by
  intro scored
  have hsum : weightedSum confidence w target now a =
      weightedSum confidence w target now b + w.goalSignature :=
    weightedSum_of_matches htarget halike ha hb
  have hnonneg : 0 ≤ weightedSum confidence w target now b :=
    blend_nonneg hw (terms_nonneg hconfidence hraw)
  have hcategory : (scored a).categoryMatch = (scored b).categoryMatch :=
    congrArg (· == target.category) halike.category
  constructor
  · intro hbelow
    have hlower : (scored b).score = weightedSum confidence w target now b :=
      clamp_of_unit hnonneg hbelow.le
    have hhigher : (scored b).score < (scored a).score := by
      rw [hlower, score_eq_clamp]
      rcases le_total (weightedSum confidence w target now a) 1 with hle | hge
      · rw [clamp_of_unit (by linarith) hle]
        linarith
      · rw [clamp_of_one_le hge]
        exact hbelow
    exact ⟨hhigher, compareScored_of_score_lt hcategory hhigher⟩
  · intro hfull
    have hmore : 1 ≤ weightedSum confidence w target now a := by linarith
    have hone : (scored a).score = 1 := clamp_of_one_le hmore
    have hother : (scored b).score = 1 := clamp_of_one_le hfull
    exact ⟨hone, hother, compareScored_of_score_eq halike (hone.trans hother.symm)⟩

/-- The default weights, in exact numbers. -/
def standardWeights : Weights ℚ := ⟨45 / 100, 20 / 100, 15 / 100, 10 / 100, 10 / 100, 8 / 100⟩

theorem nonNegative_standardWeights : standardWeights.NonNegative := by
  constructor <;> decide +kernel

/-- A goal with a signature. -/
def addZero : RankTarget := ⟨"n", .other, some "n + 0 = n"⟩

/-- A tactic that was tried as often as counts, never failed, and was seen now. -/
def flawless (tacticKey : String) (goalSignature : Option String) : Candidate ℚ :=
  ⟨.other, tacticKey, 1, 15, some ⟨0, 0⟩, ⟨15, 15, some ⟨0, 0⟩⟩, goalSignature⟩

/-- A tactic that failed every second time. -/
def halfway (tacticKey : String) (goalSignature : Option String) : Candidate ℚ :=
  { flawless tacticKey goalSignature with rawScore := 1 / 2 }

/-- Both cases occur with the default weights. -/
theorem signature_bonus_halfway_flawless :
    let scored := (exact fun _ => 1).score standardWeights addZero ⟨0, 0⟩
    standardWeights.NonNegative ∧ 0 < standardWeights.goalSignature ∧
      addZero.goalSignature = some "n + 0 = n" ∧
      (halfway "zzz" (some "n + 0 = n")).Alike (halfway "aaa" none) ∧
      (flawless "zzz" (some "n + 0 = n")).Alike (flawless "aaa" none) ∧
      (exact fun _ => 1).compareScored (scored (halfway "zzz" (some "n + 0 = n")))
        (scored (halfway "aaa" none)) = .lt ∧
      (scored (flawless "aaa" none)).score = 1 := by
  intro scored
  have hconfidence : ∀ n : UInt64, (0 : ℚ) ≤ (fun _ => 1 : UInt64 → ℚ) n := fun _ => zero_le_one
  have hbonus : 0 < standardWeights.goalSignature := by decide +kernel
  have htarget : addZero.goalSignature = some "n + 0 = n" := rfl
  have hhalfway : (halfway "zzz" (some "n + 0 = n")).Alike (halfway "aaa" none) :=
    ⟨rfl, rfl, rfl, rfl, rfl⟩
  have hflawless : (flawless "zzz" (some "n + 0 = n")).Alike (flawless "aaa" none) :=
    ⟨rfl, rfl, rfl, rfl, rfl⟩
  have hbelow := (signature_bonus hconfidence nonNegative_standardWeights hbonus htarget hhalfway
    (by decide +kernel) rfl (by decide) ⟨0, 0⟩).1 (by decide +kernel)
  have hfull := (signature_bonus hconfidence nonNegative_standardWeights hbonus htarget hflawless
    (by decide +kernel) rfl (by decide) ⟨0, 0⟩).2 (by decide +kernel)
  exact ⟨nonNegative_standardWeights, hbonus, htarget, hhalfway, hflawless, hbelow.2, hfull.2.1⟩

/-- The bonus is not strict in general: of two flawless tactics the one that closed a goal like the
    target's has no higher score and comes second, because its key does. -/
theorem not_strict_bonus_flawless :
    ¬ ∀ (confidence : UInt64 → ℚ) (w : Weights ℚ) (target : RankTarget) (signature : String)
        (now : Instant) (a b : Candidate ℚ),
      (∀ n, 0 ≤ confidence n ∧ confidence n ≤ 1) → w.NonNegative → 0 < w.goalSignature →
      target.goalSignature = some signature → a.Alike b → 0 ≤ a.rawScore → a.rawScore ≤ 1 →
      a.tacticKey ≠ b.tacticKey → a.goalSignature = some signature →
      b.goalSignature ≠ some signature →
      ((exact confidence).score w target now b).score <
          ((exact confidence).score w target now a).score ∧
        (exact confidence).compareScored ((exact confidence).score w target now a)
          ((exact confidence).score w target now b) = .lt := by
  intro hstrict
  have hpair := hstrict (fun _ => 1) standardWeights addZero "n + 0 = n" ⟨0, 0⟩
    (flawless "zzz" (some "n + 0 = n")) (flawless "aaa" none) (fun _ => ⟨zero_le_one, le_rfl⟩)
    nonNegative_standardWeights (by decide +kernel) rfl ⟨rfl, rfl, rfl, rfl, rfl⟩
    (by decide +kernel) (by decide +kernel) (by decide) rfl (by decide)
  have hequal : ((exact fun _ => 1).score standardWeights addZero ⟨0, 0⟩
      (flawless "zzz" (some "n + 0 = n"))).score =
        ((exact fun _ => 1).score standardWeights addZero ⟨0, 0⟩ (flawless "aaa" none)).score := by
    decide +kernel
  exact absurd hequal hpair.1.ne'

end Arithmetic

end ProofLedger
