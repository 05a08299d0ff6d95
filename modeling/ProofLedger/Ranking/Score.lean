import ProofLedger.Ranking.Candidate
import ProofLedger.Settings
import ProofLedger.Suggestion

/-!
# Scores and ranks

The score of a candidate is a weighted sum of six terms between zero and one, cut to that range.
Candidates of the target's own category come first; within each part the score decides, and ties
are broken down to a total order of distinct classes.

The arithmetic is a parameter: the program computes in doubles, in this order of operations.
-/

namespace ProofLedger

/-- The numbers a score is computed in. -/
structure Arithmetic (α : Type) where
  zero : α
  one : α
  half : α
  add : α → α → α
  mul : α → α → α
  /-- whether a number is below another -/
  below : α → α → Bool
  /-- whether a number may be cut to the range from zero to one -/
  isFinite : α → Bool
  /-- a total order of all numbers -/
  compare : α → α → Ordering
  /-- the confidence that a number of samples gives -/
  confidence : UInt64 → α
  /-- how fresh something is that happened a number of milliseconds ago -/
  freshness : Nat → α
  /-- the share of successes -/
  rate : UInt64 → UInt64 → α

-- ── Doubles ───────────────────────────────────────────────────────────────────

/-- A number cut to the range from zero to one. -/
def clampUnit (x : Float) : Float := if x < 0 then 0 else if 1 < x then 1 else x

/-- The confidence that a number of samples gives: `log2 (n + 1) / 4`, at most one. -/
def sampleConfidence (n : UInt64) : Float :=
  clampUnit ((n.toFloat + 1.0).log2 / 4.0)

/-- One week in milliseconds: after it freshness has fallen to one half. -/
def halfLifeMs : Float := 604800000.0

/-- How fresh something is that happened a number of milliseconds ago. -/
def freshness (ageMs : Nat) : Float := 1.0 / (1.0 + ageMs.toUInt64.toFloat / halfLifeMs)

/-- The place of a double in the total order of all doubles, in which negative zero comes before
    zero, and numbers that are none come first or last by their sign. -/
def floatRank (x : Float) : Int :=
  let bits := x.toBits.toNat
  if bits < Nat.pow 2 63 then bits else -((bits - Nat.pow 2 63 : Nat) : Int) - 1

/-- The arithmetic of doubles. -/
def Arithmetic.double : Arithmetic Float where
  zero := 0
  one := 1
  half := 0.5
  add := (· + ·)
  mul := (· * ·)
  below x y := decide (x < y)
  isFinite := Float.isFinite
  compare x y := Ord.compare (floatRank x) (floatRank y)
  confidence := sampleConfidence
  freshness := ProofLedger.freshness
  rate := successRate

-- ── Scores ────────────────────────────────────────────────────────────────────

/-- The obligation that suggestions are ranked for. -/
structure RankTarget where
  nodeId : String
  category : Category
  goalSignature : Option String := none
  deriving DecidableEq, Repr, Inhabited

/-- A candidate with its score. -/
structure Scored (α : Type) where
  candidate : Candidate α
  categoryMatch : Bool
  score : α
  deriving Repr

variable {α : Type}

namespace Arithmetic

/-- One for a match, zero otherwise. -/
def indicator (N : Arithmetic α) (b : Bool) : α := if b then N.one else N.zero

/-- How recently something was seen; never seen counts zero, and the future as now. -/
def recency (N : Arithmetic α) (lastSeen : Option Instant) (now : Instant) : α :=
  match lastSeen with
  | none => N.zero
  | some t => N.freshness (now.millisSince t).toNat

/-- What the attempts on the obligation itself say: half their number, half their success. -/
def localConfidence (N : Arithmetic α) (s : LocalStats) : α :=
  if s.attempts = 0 then N.zero
  else N.add (N.mul N.half (N.confidence s.attempts)) (N.mul N.half (N.rate s.successes s.attempts))

/-- The weighted sum of six terms, from left to right. -/
def blend (N : Arithmetic α) (w terms : Weights α) : α :=
  let sum := N.mul w.global terms.global
  let sum := N.add sum (N.mul w.categoryMatch terms.categoryMatch)
  let sum := N.add sum (N.mul w.sampleConfidence terms.sampleConfidence)
  let sum := N.add sum (N.mul w.recency terms.recency)
  let sum := N.add sum (N.mul w.nodeLocal terms.nodeLocal)
  N.add sum (N.mul w.goalSignature terms.goalSignature)

/-- A sum cut to the range from zero to one; one that is not finite counts zero. -/
def clamp (N : Arithmetic α) (x : α) : α :=
  if N.isFinite x then
    if N.below x N.zero then N.zero else if N.below N.one x then N.one else x
  else N.zero

/-- Whether a candidate closed a goal like the target's. -/
def signatureMatches (target : RankTarget) (c : Candidate α) : Bool :=
  match c.goalSignature, target.goalSignature with
  | some a, some b => a == b
  | _, _ => false

/-- The terms of the score of a candidate. -/
def terms (N : Arithmetic α) (target : RankTarget) (now : Instant) (c : Candidate α) :
    Weights α where
  global := c.rawScore
  categoryMatch := N.indicator (c.category == target.category)
  sampleConfidence := N.confidence c.sampleSize
  recency := N.recency c.lastSeen now
  nodeLocal := N.localConfidence c.localStats
  goalSignature := N.indicator (signatureMatches target c)

/-- A candidate with its score. -/
def score (N : Arithmetic α) (w : Weights α) (target : RankTarget) (now : Instant)
    (c : Candidate α) : Scored α where
  candidate := c
  categoryMatch := c.category == target.category
  score := N.clamp (N.blend w (N.terms target now c))

/-- The order of suggestions: the target's category first, then descending by score, raw score,
    samples and local attempts, then ascending by tactic key and name of category. -/
def compareScored (N : Arithmetic α) (a b : Scored α) : Ordering :=
  (Ord.compare b.categoryMatch a.categoryMatch).then <|
  (N.compare b.score a.score).then <|
  (N.compare b.candidate.rawScore a.candidate.rawScore).then <|
  (Ord.compare b.candidate.sampleSize a.candidate.sampleSize).then <|
  (Ord.compare b.candidate.localStats.attempts a.candidate.localStats.attempts).then <|
  (Ord.compare a.candidate.tacticKey b.candidate.tacticKey).then <|
  Ord.compare a.candidate.category.name b.candidate.category.name

/-- Candidates with enough samples, scored, in order. -/
def rankAll (N : Arithmetic α) (w : Weights α) (minSampleSize : Nat) (target : RankTarget)
    (now : Instant) (candidates : List (Candidate α)) : List (Scored α) :=
  ((candidates.filter fun c => minSampleSize ≤ c.sampleSize.toNat).map
    (N.score w target now)).mergeSort fun a b => N.compareScored a b != .gt

end Arithmetic

/-- The suggestion that a scored candidate becomes. -/
def SuggestionEntry.ofScored (target : RankTarget) (now : Instant) (s : Scored Float) :
    SuggestionEntry where
  nodeId := target.nodeId
  tacticKey := s.candidate.tacticKey
  score := s.score
  sampleSize := s.candidate.sampleSize
  successRate := s.candidate.rawScore
  sourceCategory := some s.candidate.category
  generatedAt := now

/-- The best candidates for a target. -/
def rankCandidates (settings : RankingSettings) (target : RankTarget) (now : Instant)
    (candidates : List (Candidate Float)) : List SuggestionEntry :=
  let ranked := Arithmetic.double.rankAll settings.weights settings.minSampleSize target now
    candidates
  (ranked.take settings.limit).map (SuggestionEntry.ofScored target now)

end ProofLedger
