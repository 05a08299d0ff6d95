import ProofLedger.Failure
import ProofLedger.Ledger
import ProofLedger.Recommendation
import ProofLedger.TacticOutcome
import ProofLedger.Text.Quoted
import ProofLedger.Workspace

/-!
# Sessions

A session ties the engines to a workspace, to the scheduler that syncs its files, and to an
executor of tactics. Recording and suggesting take the state, ask an engine for patches and
commit them. Applying a tactic has it executed, records how that went, and syncs the file.
-/

namespace ProofLedger

/-- What an executor answers to a request: an outcome, or why the call failed. -/
abbrev ExecutorAnswer := Except String TacticOutcome

/-- A workspace at work. -/
structure Session where
  timeline : Timeline Workspace
  scheduling : SchedulerSettings := {}
  ranking : RankingSettings := {}
  /-- the answers of the executor to come; none where no executor is attached -/
  executor : Option (List ExecutorAnswer) := none
  /-- what the executor was asked to do, in order -/
  requests : List TacticRequest := []

namespace Session

/-- The workspace of a session. -/
def workspace (s : Session) : Workspace := s.timeline.world

/-- The session with its workspace changed. -/
def modify (s : Session) (f : Workspace → Workspace) : Session :=
  { s with timeline := { s.timeline with world := f s.timeline.world } }

/-- The session with patches committed. -/
def commit (s : Session) (patches : List Patch) : Session := s.modify (·.commit patches)

-- ── Syncing ───────────────────────────────────────────────────────────────────

/-- Requests a sync. -/
def schedule (s : Session) (r : SyncRequest) : Session :=
  { s with timeline := s.timeline.schedule s.scheduling Workspace.worker r }

/-- Requests a sync and waits until it is done. -/
def sync (s : Session) (r : SyncRequest) : Session :=
  { s with timeline := s.timeline.scheduleAndWait s.scheduling Workspace.worker r }

/-- Lets time pass. -/
def advance (s : Session) (ms : Nat) : Session :=
  { s with timeline := s.timeline.advance s.scheduling Workspace.worker ms }

/-- Gives up the syncs that wait. -/
def shutdown (s : Session) : Session :=
  { s with timeline := s.timeline.clear s.scheduling Workspace.worker }

-- ── Attempts and suggestions ──────────────────────────────────────────────────

/-- Records an attempt. -/
def record (s : Session) (a : AttemptInput) : Session × List Patch :=
  let patches := Ledger.record s.workspace.state a s.workspace.clock
  (if patches.isEmpty then s else s.commit patches, patches)

/-- Ranks the suggestions for an obligation and stores them. -/
def suggest (s : Session) (fileKey nodeId : String) : Session × List SuggestionEntry :=
  match Recommendation.refreshSlot s.ranking s.workspace.state fileKey nodeId
      s.workspace.clock with
  | none => (s, [])
  | some r => (s.commit r.patches, r.slot.entries)

-- ── Tactics ───────────────────────────────────────────────────────────────────

/-- What an answer amounts to; a failed call counts as a tactic that was not applied. -/
def settle : ExecutorAnswer → SettledOutcome
  | .ok outcome => .ofOutcome outcome
  | .error reason => .ofOutcome
    { applied := false, errorMessage := some (Failure.executionFailed reason).message }

/-- Has a request executed. An executor that has no answer left does not apply the tactic. -/
def execute (s : Session) (answers : List ExecutorAnswer) (r : TacticRequest) :
    Session × SettledOutcome :=
  ({ s with executor := some answers.tail, requests := s.requests ++ [r] },
    settle (answers.head?.getD (.ok { applied := false })))

/-- The attempt that an executed tactic amounts to. -/
def attemptOf (r : TacticRequest) (category : Option Category) (outcome : SettledOutcome) :
    AttemptInput where
  fileKey := r.fileKey
  nodeId := r.nodeId
  tactic := r.tactic
  tacticKey := some r.tacticKey
  result := outcome.result
  category
  errorMessage := outcome.errorMessage
  durationMs := outcome.durationMs

/-- How a tactic went, and the patches that recorded it. -/
structure AppliedTactic where
  outcome : SettledOutcome
  patches : List Patch

/-- Applies a tactic: it is executed and recorded under the category that the obligation had
    before, and its file is synced. -/
def applyTactic (s : Session) (fileKey nodeId tactic : String) :
    Except Failure (Session × AppliedTactic) :=
  match s.executor, tacticKey? tactic with
  | none, _ => .error (.executionFailed "no tactic executor configured")
  | some _, none => .error (.invalid ("no tactic in " ++ Text.quoted tactic))
  | some answers, some tacticKey =>
    let category := Recommendation.category? s.workspace.state fileKey nodeId
    let request : TacticRequest := { fileKey, nodeId, tactic, tacticKey }
    let (executed, outcome) := s.execute answers request
    let (recorded, patches) := executed.record (attemptOf request category outcome)
    .ok (recorded.sync { key := fileKey, reason := .apply }, { outcome, patches })

end Session

end ProofLedger
