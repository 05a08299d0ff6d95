import ProofLedger.NodeHistory

/-!
# Local statistics

The attempts on one obligation, counted by category and tactic key.
-/

namespace ProofLedger

/-- What is counted together: a category and a tactic key. -/
structure TacticClass where
  category : Category
  tacticKey : String
  deriving DecidableEq, Repr, Inhabited

/-- The order of tactic classes: by category, then by key. -/
def TacticClass.before (a b : TacticClass) : Bool :=
  a.category.rank < b.category.rank ||
    (a.category.rank == b.category.rank && decide (a.tacticKey < b.tacticKey))

/-- Counts of one tactic on one obligation. -/
structure LocalStats where
  successes : UInt64 := 0
  attempts : UInt64 := 0
  lastAttemptAt : Option Instant := none
  deriving DecidableEq, Repr, Inhabited

namespace LocalStats

/-- Counts one more attempt. -/
def observe (s : LocalStats) (a : AttemptRecord) : LocalStats where
  successes := if a.result.isSuccess then s.successes + 1 else s.successes
  attempts := s.attempts + 1
  lastAttemptAt := some <|
    match s.lastAttemptAt with
    | none => a.timestamp
    | some t => if t < a.timestamp then a.timestamp else t

/-- Counts an attempt into a list that is in the order of classes. -/
def observeInto (c : TacticClass) (a : AttemptRecord) :
    List (TacticClass × LocalStats) → List (TacticClass × LocalStats)
  | [] => [(c, observe {} a)]
  | (d, s) :: rest =>
    if c.before d then (c, observe {} a) :: (d, s) :: rest
    else if c = d then (d, s.observe a) :: rest
    else (d, s) :: observeInto c a rest

/-- The class an attempt is counted in. -/
def classOf (a : AttemptRecord) : TacticClass := ⟨a.countedCategory, a.tacticKey⟩

/-- The statistics of a history, in the order of classes. -/
def ofHistory (h : NodeHistory) : List (TacticClass × LocalStats) :=
  h.attempts.values.foldl (fun stats a => observeInto (classOf a) a stats) []

/-- The statistics of a class in a list. -/
def lookup (c : TacticClass) (stats : List (TacticClass × LocalStats)) : Option LocalStats :=
  (stats.find? fun e => e.1 == c).map (·.2)

end LocalStats

end ProofLedger
