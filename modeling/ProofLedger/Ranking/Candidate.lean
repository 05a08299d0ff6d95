import ProofLedger.PatternEntry
import ProofLedger.Ranking.LocalStats

/-!
# Candidates

A candidate is a tactic that may be suggested. Candidates come from the patterns and, for what
was tried on the obligation but has no pattern, from its own history. The raw score may be of
any number type.
-/

namespace ProofLedger

/-- A tactic under consideration. -/
structure Candidate (α : Type) where
  category : Category
  tacticKey : String
  /-- the share of successes -/
  rawScore : α
  sampleSize : UInt64
  lastSeen : Option Instant
  /-- what was tried on the obligation itself -/
  localStats : LocalStats
  goalSignature : Option String
  deriving Repr

namespace Candidate

/-- The class of a candidate. -/
def tacticClass {α : Type} (c : Candidate α) : TacticClass := ⟨c.category, c.tacticKey⟩

/-- The candidate of a pattern, with what was tried locally. -/
def ofPattern (p : PatternEntry) (tried : Option LocalStats) : Candidate Float where
  category := p.category
  tacticKey := p.tacticKey
  rawScore := p.score
  sampleSize := p.sampleSize
  lastSeen := some p.lastUpdated
  localStats := tried.getD {}
  goalSignature := p.goalSignature

/-- The candidate of a class that has no pattern. -/
def ofLocal (c : TacticClass) (s : LocalStats) : Candidate Float where
  category := c.category
  tacticKey := c.tacticKey
  rawScore := successRate s.successes s.attempts
  sampleSize := s.attempts
  lastSeen := s.lastAttemptAt
  localStats := s
  goalSignature := none

/-- Candidates with that of a class, unless the class has one already. -/
def adjoin (found : List (Candidate Float)) (e : TacticClass × LocalStats) :
    List (Candidate Float) :=
  if found.any fun c => c.tacticClass == e.1 then found else found ++ [ofLocal e.1 e.2]

/-- The candidates of some patterns and local statistics: a class that has a pattern takes
    from its statistics no more than the local part. -/
def collect (patterns : List PatternEntry) (stats : List (TacticClass × LocalStats)) :
    List (Candidate Float) :=
  stats.foldl adjoin <| patterns.map fun p =>
    ofPattern p (LocalStats.lookup ⟨p.category, p.tacticKey⟩ stats)

end Candidate

end ProofLedger
