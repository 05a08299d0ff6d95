import ProofLedger.Scheduler.Timeline

/-!
# Scripted work

A script says of each key how long its runs last and how they end, in order, and the same of the
task of each request. It is the world of a scheduler whose timing is studied on its own.
-/

namespace ProofLedger

/-- How long a run or a task lasts and how it ends. -/
structure Work where
  ms : Nat := 0
  outcome : RunOutcome := .ok
  deriving DecidableEq, Repr, Inhabited

/-- The work to come: of each key, and of the task of each request. -/
structure Script where
  runs : Table (List Work) := .empty
  tasks : List (Nat × Work) := []
  deriving DecidableEq, Repr, Inhabited

namespace Script

/-- Takes the next run of a key; one that no script tells of ends well and at once. -/
def takeRun (s : Script) (key : String) : Execution Script :=
  match s.runs.get? key with
  | some (work :: rest) =>
    { world := { s with runs := s.runs.insert key rest }, ms := work.ms, outcome := work.outcome }
  | _ => { world := s }

/-- The task of a request. -/
def takeTask (s : Script) (request : Nat) : Execution Script :=
  match s.tasks.lookup request with
  | some work => { world := s, ms := work.ms, outcome := work.outcome }
  | none => { world := s }

/-- The worker that follows the script. -/
def worker : Worker Script where
  run s key _ := s.takeRun key
  task := takeTask

/-- A step of a scripted timeline. -/
inductive Step where
  | schedule (request : SyncRequest) (task : Option Work)
  | advance (ms : Nat)
  | clear
  deriving DecidableEq, Repr

/-- Takes a step. The task of a request is written down under the number of the request. -/
def step (settings : SchedulerSettings) (t : Timeline Script) : Step → Timeline Script
  | .schedule r task =>
    let number := t.scheduler.requests + 1
    let tasks := match task with
      | some work => t.world.tasks ++ [(number, work)]
      | none => t.world.tasks
    Timeline.schedule settings worker { r with hasTask := task.isSome }
      { t with world := { t.world with tasks } }
  | .advance ms => Timeline.advance settings worker ms t
  | .clear => Timeline.clear settings worker t

end Script

end ProofLedger
