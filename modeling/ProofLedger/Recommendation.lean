import ProofLedger.ProofState
import ProofLedger.Ranking.Score
import ProofLedger.Text.Statement

/-!
# Recommending tactics

Suggestions for an obligation need its failure category. They are ranked and cached in a slot;
writing a slot also drops the slots that have expired and the oldest ones beyond the capacity.
Each slot is generated strictly after all cached ones.
-/

namespace ProofLedger

namespace Recommendation

/-- The failure category of an obligation: that of its node, then unsolved goals for an open
    node, then that of the latest attempt. -/
def category? (s : ProofState) (fileKey nodeId : String) : Option Category :=
  let attempted := ((s.nodeHistory? fileKey nodeId).bind (·.latest?)).map (·.countedCategory)
  match s.node? fileKey nodeId with
  | none => attempted
  | some n =>
    match n.errorCategory with
    | some c => some c
    | none => if n.status.isOpen then some .unsolvedGoals else attempted

/-- The target of suggestions for an obligation. -/
def target? (s : ProofState) (fileKey nodeId : String) : Option RankTarget :=
  if Text.isBlankText fileKey || Text.isBlankText nodeId then none
  else (category? s fileKey nodeId).map fun category => {
    nodeId
    category
    goalSignature := (s.goal? fileKey nodeId).bind fun g => Text.goalSignature g.matchingText }

/-- The candidates for an obligation. -/
def candidates (s : ProofState) (fileKey nodeId : String) : List (Candidate Float) :=
  Candidate.collect s.patterns.values
    (((s.nodeHistory? fileKey nodeId).map LocalStats.ofHistory).getD [])

/-- The suggestions for an obligation, unless its category is unknown. -/
def rank (settings : RankingSettings) (s : ProofState) (fileKey nodeId : String)
    (now : Instant) : Option (List SuggestionEntry) :=
  (target? s fileKey nodeId).map fun target =>
    rankCandidates settings target now (candidates s fileKey nodeId)

-- ── Cache ─────────────────────────────────────────────────────────────────────

/-- The latest time at which a cached slot was generated. -/
def newestGeneration? (s : ProofState) : Option Instant :=
  s.suggestions.values.foldl (fun newest slot =>
    match newest with
    | none => some slot.generatedAt
    | some t => if t < slot.generatedAt then some slot.generatedAt else some t) none

/-- The time of a new slot: now, or right after the newest slot if that is not earlier. After the
    last instant there is none. -/
def nextGeneration? (s : ProofState) (now : Instant) : Option Instant :=
  match newestGeneration? s with
  | some newest => if newest < now then some now else newest.addMillis? 1
  | none => some now

/-- Whether a slot has outlived its time. -/
def isExpired (settings : RankingSettings) (now : Instant) (slot : SuggestionSlot) : Bool :=
  match now.subSeconds? settings.cacheTtlSecs with
  | some cutoff => slot.generatedAt < cutoff
  | none => false

/-- Slots from the oldest on, equally old ones by key. -/
def byAge (slots : List (String × SuggestionSlot)) : List (String × SuggestionSlot) :=
  slots.mergeSort fun a b =>
    a.2.generatedAt < b.2.generatedAt ||
      (a.2.generatedAt == b.2.generatedAt && !decide (b.1 < a.1))

/-- The keys of the slots to drop when the current one is written: the expired ones, then the
    oldest of the others as far as they exceed the capacity. -/
def staleKeys (settings : RankingSettings) (s : ProofState) (current : String) (now : Instant) :
    List String :=
  let others := s.suggestions.entries.filter fun e => e.1 != current
  let expired := others.filter fun e => isExpired settings now e.2
  let alive := others.filter fun e => !isExpired settings now e.2
  let excess := alive.length - (settings.cacheMaxEntries - 1)
  (expired ++ (byAge alive).take excess).map (·.1)

/-- A new slot with the patches that store it. -/
structure Refresh where
  slot : SuggestionSlot
  patches : List Patch

/-- Ranks the suggestions for an obligation and stores them. -/
def refreshSlot (settings : RankingSettings) (s : ProofState) (fileKey nodeId : String)
    (now : Instant) : Option Refresh := do
  let generatedAt ← nextGeneration? s now
  let entries ← rank settings s fileKey nodeId generatedAt
  let key := SuggestionSlot.keyOf fileKey nodeId
  let slot : SuggestionSlot := { fileKey, nodeId, entries, generatedAt }
  return {
    slot
    patches := .set (StatePath.suggestionSlot key) slot.toJson ::
      (staleKeys settings s key generatedAt).map fun k => .unset (StatePath.suggestionSlot k) }

/-- The patches that store new suggestions for an obligation. -/
def suggest (settings : RankingSettings) (s : ProofState) (fileKey nodeId : String)
    (now : Instant) : List Patch :=
  ((refreshSlot settings s fileKey nodeId now).map (·.patches)).getD []

end Recommendation

end ProofLedger
