import ProofLedger.Scheduler.Phase
import ProofLedger.Settings
import ProofLedger.Table

/-!
# Scheduling

Requests for a key are held back for a while and then covered by a single run. A request that
comes while the timer is armed arms it anew; one that comes during a run waits for the run after
it. The scheduler is a machine that is told events and answers with effects: timers to arm,
runs and tasks to start, requests to resolve. It never looks at a clock.

Epochs and tokens come from one counter, so an event that belongs to a dropped entry or to a
superseded timer can be told from a current one, and is ignored.
-/

namespace ProofLedger

/-- How a run or a task ended. -/
inductive RunOutcome where
  | ok
  | error
  | panic
  deriving DecidableEq, Repr, Inhabited

/-- The name of an outcome. -/
def RunOutcome.name : RunOutcome → String
  | .ok => "ok"
  | .error => "err"
  | .panic => "panic"

/-- A request to bring a key up to date. -/
structure SyncRequest where
  key : String
  reason : SyncReason
  /-- replaces the delay of the reason; a negative one counts as zero -/
  overrideMs : Option Int := none
  /-- whether a task is to be run after the run that covers the request -/
  hasTask : Bool := false
  deriving DecidableEq, Repr

/-- The largest delay that settings can ask for. -/
def SchedulerSettings.maxDelayMs : Nat := 0x7FFFFFFFFFFFFFFF

/-- The delay before a request is served: its override, or else the delay of its reason. -/
def SchedulerSettings.delayOf (settings : SchedulerSettings) (reason : SyncReason)
    (overrideMs : Option Int) : Nat :=
  match overrideMs with
  | some ms => ms.toNat
  | none => min (settings.delayMs reason) maxDelayMs

namespace Scheduler

/-- What is known of a key that is not idle. Requests are named by their numbers. -/
structure Entry where
  /-- tells the entry from a later one of the same key -/
  epoch : Nat
  phase : Phase
  /-- the token of the live timer -/
  timer : Option Nat
  /-- the token of the timer that was armed last -/
  token : Nat
  /-- whether a request came during the run -/
  queued : Bool
  /-- reason and override of the last request -/
  reason : SyncReason
  overrideMs : Option Int
  /-- the requests that the next run covers -/
  waiters : List Nat
  /-- those among them that have a task -/
  tasks : List Nat
  deriving DecidableEq, Repr

/-- What a run in flight is busy with. -/
inductive Stage where
  /-- the run proper -/
  | runner
  /-- the task of a request -/
  | task (request : Nat)
  deriving DecidableEq, Repr

/-- A run in flight, with the requests that it covers and the tasks that are still to come. -/
structure Run where
  key : String
  epoch : Nat
  reason : SyncReason
  waiters : List Nat
  tasks : List Nat
  stage : Stage
  deriving DecidableEq, Repr

/-- What the scheduler is told. -/
inductive Event where
  | schedule (request : SyncRequest)
  | timer (key : String) (token : Nat)
  | runEnded (key : String) (epoch : Nat) (outcome : RunOutcome)
  | taskEnded (key : String) (epoch request : Nat) (outcome : RunOutcome)
  | clear
  deriving DecidableEq, Repr

/-- What the scheduler asks for. -/
inductive Effect where
  | arm (key : String) (token delayMs : Nat)
  | disarm (key : String) (token : Nat)
  | startRun (key : String) (epoch : Nat) (reason : SyncReason)
  | startTask (key : String) (epoch request : Nat)
  | resolve (request : Nat)
  deriving DecidableEq, Repr

end Scheduler

/-- The scheduler of all keys. -/
structure Scheduler where
  /-- the keys that are not idle -/
  entries : Table Scheduler.Entry := .empty
  /-- the runs in flight -/
  runs : List Scheduler.Run := []
  /-- the last epoch or token that was given out -/
  lastId : Nat := 0
  /-- the number of requests so far, which is also the number of the last one -/
  requests : Nat := 0
  deriving DecidableEq, Repr, Inhabited

namespace Scheduler

/-- The phase of a key. -/
def phase (s : Scheduler) (key : String) : Phase :=
  ((s.entries.get? key).map (·.phase)).getD .idle

/-- The number of keys that are not idle. -/
def activeKeys (s : Scheduler) : Nat := s.entries.size

namespace Entry

/-- The entry of a key that is requested for the first time. -/
def fresh (epoch : Nat) (reason : SyncReason) : Entry where
  epoch
  phase := .idle
  timer := none
  token := 0
  queued := false
  reason
  overrideMs := none
  waiters := []
  tasks := []

/-- Whether requests wait for another run. -/
def hasPending (e : Entry) : Bool := e.queued || !e.waiters.isEmpty || !e.tasks.isEmpty

/-- The delay of the timer: that of the last request. -/
def delayMs (settings : SchedulerSettings) (e : Entry) : Nat :=
  settings.delayOf e.reason e.overrideMs

/-- The entry after one more request, which the next run covers. -/
def join (e : Entry) (number : Nat) (r : SyncRequest) : Entry :=
  { e with
    waiters := e.waiters ++ [number]
    tasks := if r.hasTask then e.tasks ++ [number] else e.tasks
    reason := r.reason
    overrideMs := r.overrideMs
    queued := e.queued || e.phase = .running
    phase := e.phase.after .request }

/-- The entry when its timer has fired: the run has taken the requests. -/
def fired (e : Entry) : Entry :=
  { e with
    timer := none
    queued := false
    phase := e.phase.after .timerFired
    waiters := []
    tasks := [] }

/-- The run that an entry starts. -/
def run (e : Entry) (key : String) : Run where
  key
  epoch := e.epoch
  reason := e.reason
  waiters := e.waiters
  tasks := e.tasks
  stage := .runner

/-- The entry after a clear. -/
def cleared (e : Entry) : Entry :=
  { e with
    timer := none
    queued := false
    phase := e.phase.after .clear
    waiters := []
    tasks := [] }

/-- The effect that drops the live timer. -/
def disarm (e : Entry) (key : String) : List Effect := (e.timer.map (Effect.disarm key)).toList

end Entry

-- ── Requests ──────────────────────────────────────────────────────────────────

/-- Stores an entry with its timer armed anew. -/
def arm (settings : SchedulerSettings) (s : Scheduler) (key : String) (e : Entry) :
    Scheduler × List Effect :=
  let token := s.lastId + 1
  ({ s with
      entries := s.entries.insert key { e with timer := some token, token }
      lastId := token },
    e.disarm key ++ [.arm key token (e.delayMs settings)])

/-- Registers a request under the next number. -/
def schedule (settings : SchedulerSettings) (s : Scheduler) (r : SyncRequest) :
    Scheduler × List Effect :=
  let number := s.requests + 1
  let counted := { s with requests := number }
  match s.entries.get? r.key with
  | none => arm settings { counted with lastId := s.lastId + 1 } r.key
      ((Entry.fresh (s.lastId + 1) r.reason).join number r)
  | some e =>
    let joined := e.join number r
    if e.phase = .running then ({ counted with entries := s.entries.insert r.key joined }, [])
    else arm settings counted r.key joined

-- ── Runs ──────────────────────────────────────────────────────────────────────

/-- Starts the run of a key whose timer fires. A timer that was superseded has no effect. -/
def fire (s : Scheduler) (key : String) (token : Nat) : Scheduler × List Effect :=
  match s.entries.get? key with
  | none => (s, [])
  | some e =>
    if e.token = token ∧ e.phase = .debouncing then
      ({ s with entries := s.entries.insert key e.fired, runs := s.runs ++ [e.run key] },
        [.startRun key e.epoch e.reason])
    else (s, [])

/-- Lets a key leave its run: its timer is armed again if requests wait, else it is idle. -/
def finish (settings : SchedulerSettings) (s : Scheduler) (key : String) (epoch : Nat) :
    Scheduler × List Effect :=
  match s.entries.get? key with
  | none => (s, [])
  | some e =>
    if e.epoch = epoch ∧ e.phase = .running then
      let phase := e.phase.after (.runFinished e.hasPending)
      if e.hasPending then arm settings s key { e with phase, queued := false }
      else ({ s with entries := s.entries.erase key }, [])
    else (s, [])

/-- Whether a run is the one of a key and an epoch. -/
def Run.is (r : Run) (key : String) (epoch : Nat) : Bool := r.key == key && r.epoch == epoch

/-- Goes on with a run: to its next task, or to its end, which resolves the requests that it
    covers. -/
def proceed (settings : SchedulerSettings) (s : Scheduler) (r : Run) : Scheduler × List Effect :=
  match r.tasks with
  | request :: rest =>
    let next := { r with stage := .task request, tasks := rest }
    ({ s with runs := s.runs.map fun q => if q.is r.key r.epoch then next else q },
      [.startTask r.key r.epoch request])
  | [] =>
    let left := { s with runs := s.runs.filter fun q => !q.is r.key r.epoch }
    let (finished, effects) := finish settings left r.key r.epoch
    (finished, effects ++ r.waiters.map .resolve)

/-- Goes on with the run of a key and an epoch, provided that it is at the given stage. -/
def proceedFrom (settings : SchedulerSettings) (s : Scheduler) (key : String) (epoch : Nat)
    (stage : Stage) : Scheduler × List Effect :=
  match s.runs.find? fun r => r.is key epoch && r.stage == stage with
  | none => (s, [])
  | some r => proceed settings s r

-- ── Clearing ──────────────────────────────────────────────────────────────────

/-- Drops every timer and every request that no run has taken; the requests are resolved. Keys
    with a run in flight stay, so that later requests queue behind it. -/
def clear (s : Scheduler) : Scheduler × List Effect :=
  ({ s with entries := s.entries.filterMap fun e =>
      if e.cleared.phase = .running then some e.cleared else none },
    s.entries.entries.flatMap fun (key, e) => e.disarm key ++ e.waiters.map .resolve)

/-- The scheduler after an event, and what it asks for. How a run or a task ended makes no
    difference: failures are never retried and never keep a request waiting. -/
def step (settings : SchedulerSettings) (s : Scheduler) : Event → Scheduler × List Effect
  | .schedule r => schedule settings s r
  | .timer key token => fire s key token
  | .runEnded key epoch _ => proceedFrom settings s key epoch .runner
  | .taskEnded key epoch request _ => proceedFrom settings s key epoch (.task request)
  | .clear => clear s

end Scheduler

end ProofLedger
