import ProofLedger.Decimal.Fixed
import ProofLedger.Derivation
import ProofLedger.ProofState
import ProofLedger.SyncReason
import ProofLedger.Text.Column
import ProofLedger.Text.Truncate

/-!
# Reports of the commands

What each command has to say, as a text for people and as JSON for programs. Tables have fixed
columns; numbers stand at the right of theirs.
-/

namespace ProofLedger

open Text (alignLeft alignRight)

/-- Lines with newlines between them. -/
def joinLines (lines : List String) : String := "\n".intercalate lines

/-- An optional text in JSON. -/
def Json.ofText? (s : Option String) : Json := (s.map Json.string).getD .null

-- ── Derive ────────────────────────────────────────────────────────────────────

/-- What was derived. -/
structure DeriveReport where
  fileKey : String
  rootStatus : String
  /-- the nodes below the root -/
  nodes : List GraphNode
  goals : List Goal
  patches : Nat

namespace DeriveReport

/-- The report on a derivation that was committed by a number of patches. -/
def ofDerivation (fileKey : String) (d : Derivation) (patches : Nat) : DeriveReport where
  fileKey
  rootStatus := (d.graph.root?.map fun n => n.status.name).getD ""
  nodes := d.graph.nodes.values.filter fun n => n.nodeId != d.graph.rootId
  goals := d.goals.values
  patches

/-- A row of the table of nodes. -/
def row (node kind status category label : String) : String :=
  " ".intercalate [alignLeft 22 node, alignLeft 11 kind, alignLeft 12 status,
    alignLeft 18 category, label]

/-- The row of a node. -/
def nodeRow (n : GraphNode) : String :=
  row n.nodeId n.kind.name n.status.name ((n.errorCategory.map Category.name).getD "-")
    (Text.truncate 30 n.label)

/-- The report as a text. -/
def text (r : DeriveReport) : String :=
  joinLines
    ([r.fileKey ++ ": " ++ r.rootStatus ++ " (" ++ toString r.nodes.length ++ " node(s), "
        ++ toString r.goals.length ++ " goal(s))\n",
      row "NODE" "KIND" "STATUS" "CATEGORY" "LABEL",
      String.ofList (List.replicate 90 '-')]
    ++ r.nodes.map nodeRow)

/-- A node in the report. -/
def nodeJson (n : GraphNode) : Json :=
  .ofFields [("node_id", .string n.nodeId), ("label", .string n.label),
    ("kind", .string n.kind.name), ("status", .string n.status.name),
    ("error_category", .ofText? (n.errorCategory.map Category.name)),
    ("goal_id", .ofText? n.goalId)]

/-- A goal in the report. -/
def goalJson (g : Goal) : Json :=
  .ofFields [("id", .string g.id), ("status", .string g.status.name),
    ("statement", .string g.statement)]

/-- The report in JSON. -/
def toJson (r : DeriveReport) : Json :=
  .ofFields [("file_key", .string r.fileKey), ("root_status", .string r.rootStatus),
    ("nodes", .ofList nodeJson r.nodes), ("goals", .ofList goalJson r.goals),
    ("patches", .ofNat r.patches)]

end DeriveReport

-- ── Record ────────────────────────────────────────────────────────────────────

/-- What was recorded. -/
structure RecordReport where
  recorded : Bool
  attemptId : Option String
  tacticKey : Option String
  totalAttempts : UInt64
  currentStreak : Nat
  patches : Nat

namespace RecordReport

/-- The report on an obligation after a number of patches: whether there were any, and the
    latest attempt in its history. -/
def ofState (s : ProofState) (fileKey nodeId : String) (patches : Nat) : RecordReport :=
  let history := s.nodeHistory? fileKey nodeId
  let latest := history.bind (·.latest?)
  { recorded := patches != 0
    attemptId := latest.map (·.id)
    tacticKey := latest.map (·.tacticKey)
    totalAttempts := (history.map (·.totalAttempts)).getD 0
    currentStreak := (history.map fun h => h.currentStreak.toNat).getD 0
    patches }

/-- The report as a text. -/
def text (r : RecordReport) : String :=
  match r.recorded, r.attemptId with
  | true, some id =>
    "Recorded " ++ id ++ " (" ++ r.tacticKey.getD "-" ++ "); " ++ toString r.totalAttempts
      ++ " attempt(s), failure streak " ++ toString r.currentStreak
  | _, _ => "Nothing recorded: attempt input was incomplete."

/-- The report in JSON. -/
def toJson (r : RecordReport) : Json :=
  .ofFields [("recorded", .bool r.recorded), ("attempt_id", .ofText? r.attemptId),
    ("tactic_key", .ofText? r.tacticKey), ("total_attempts", .ofNat r.totalAttempts.toNat),
    ("current_streak", .ofNat r.currentStreak), ("patches", .ofNat r.patches)]

end RecordReport

-- ── Suggest ───────────────────────────────────────────────────────────────────

/-- What was suggested. -/
structure SuggestReport where
  fileKey : String
  nodeId : String
  suggestions : List SuggestionEntry

namespace SuggestReport

/-- A row of the table of suggestions. -/
def row (rank tactic score samples rate category : String) : String :=
  alignLeft 4 rank ++ " " ++ alignLeft 20 tactic ++ " " ++ alignRight 7 score ++ " "
    ++ alignRight 8 samples ++ " " ++ alignRight 7 rate ++ "  " ++ category

/-- The row of a suggestion at a rank. -/
def entryRow (e : SuggestionEntry) (rank : Nat) : String :=
  row (toString rank) e.tacticKey (Decimal.fixed 3 e.score) (toString e.sampleSize)
    (alignRight 6 (Decimal.fixed 0 (e.successRate * 100)) ++ "%")
    ((e.sourceCategory.map Category.name).getD "-")

/-- The report as a text. -/
def text (r : SuggestReport) : String :=
  let obligation := r.fileKey ++ "#" ++ r.nodeId
  if r.suggestions.isEmpty then "No suggestions for " ++ obligation ++ "."
  else joinLines
    ([toString r.suggestions.length ++ " suggestion(s) for " ++ obligation ++ ":\n",
      row "#" "TACTIC" "SCORE" "SAMPLES" "RATE" "CATEGORY",
      String.ofList (List.replicate 70 '-')]
    ++ (r.suggestions.zipIdx 1).map fun (e, rank) => entryRow e rank)

/-- The report in JSON. -/
def toJson (r : SuggestReport) : Json :=
  .ofFields [("file_key", .string r.fileKey), ("node_id", .string r.nodeId),
    ("suggestions", .ofList SuggestionEntry.toJson r.suggestions)]

end SuggestReport

-- ── Sync ──────────────────────────────────────────────────────────────────────

/-- What is known of a file after a sync. -/
structure SyncReport where
  fileKey : String
  reason : String
  goals : Nat
  openGoals : Nat
  rootStatus : Option String
  lastSyncedAt : Option Instant

namespace SyncReport

/-- The report on a file that was synced for a reason. -/
def ofState (s : ProofState) (fileKey : String) (reason : SyncReason) : SyncReport :=
  let file := s.files.get? fileKey
  let goals : List Goal := (file.map fun f => f.goals.values).getD []
  { fileKey
    reason := reason.name
    goals := goals.length
    openGoals := (goals.filter fun g => g.status == .pending).length
    rootStatus := ((file.bind (·.graph)).bind (·.root?)).map fun n => n.status.name
    lastSyncedAt := file.bind (·.lastSyncedAt) }

/-- The report as a text. -/
def text (r : SyncReport) : String :=
  match r.lastSyncedAt with
  | none => r.fileKey ++ " has not been synced."
  | some t =>
    "Synced " ++ r.fileKey ++ " (" ++ r.reason ++ ") at " ++ t.textWith "+00:00".toList ++ ": "
      ++ toString r.goals ++ " goal(s), " ++ toString r.openGoals ++ " open, root "
      ++ r.rootStatus.getD "unknown"

/-- The report in JSON. -/
def toJson (r : SyncReport) : Json :=
  .ofFields [("file_key", .string r.fileKey), ("reason", .string r.reason),
    ("goals", .ofNat r.goals), ("open_goals", .ofNat r.openGoals),
    ("root_status", .ofText? r.rootStatus),
    ("last_synced_at", (r.lastSyncedAt.map Instant.toJson).getD .null)]

end SyncReport

-- ── Classify ──────────────────────────────────────────────────────────────────

/-- What a message was classified as. -/
structure ClassifyReport where
  message : String
  category : String

namespace ClassifyReport

/-- The report as a text. -/
def text (r : ClassifyReport) : String := r.category

/-- The report in JSON. -/
def toJson (r : ClassifyReport) : Json :=
  .ofFields [("message", .string r.message), ("category", .string r.category)]

end ClassifyReport

end ProofLedger
