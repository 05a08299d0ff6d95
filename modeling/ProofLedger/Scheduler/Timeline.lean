import ProofLedger.Scheduler
import ProofLedger.Scheduler.Agenda

/-!
# Scheduling on a virtual clock

A timeline runs the scheduler on a clock that moves only when it is told to. What the effects of
the scheduler ask for goes to an agenda as the events that will answer them; advancing the clock
lets everything happen that is due, at its due time. What a run or a task does and how long it
lasts is up to a `Worker` with a world of its own.
-/

namespace ProofLedger

/-- What a run or a task leaves behind: its world, its duration and how it ended. -/
structure Execution (World : Type) where
  world : World
  ms : Nat := 0
  outcome : RunOutcome := .ok

/-- How runs and tasks act on a world. -/
structure Worker (World : Type) where
  run : World → (key : String) → SyncReason → Execution World
  task : World → (request : Nat) → Execution World

/-- What can be observed of a scheduler at work. -/
inductive Happening where
  | started (key : String) (reason : SyncReason)
  | ended (key : String) (outcome : RunOutcome)
  | taskStarted (key : String) (request : Nat)
  | resolved (request : Nat)
  deriving DecidableEq, Repr

/-- A scheduler at work in a world. -/
structure Timeline (World : Type) where
  world : World
  scheduler : Scheduler := {}
  /-- milliseconds since the beginning -/
  now : Nat := 0
  /-- the events to come -/
  agenda : Agenda Scheduler.Event := []
  /-- what happened so far and when, in order -/
  log : List (Nat × Happening) := []

namespace Timeline

variable {World : Type}

/-- Notes what happens now. -/
def note (t : Timeline World) (h : Happening) : Timeline World :=
  { t with log := t.log ++ [(t.now, h)] }

/-- Enters an event that is due after a delay. -/
def later (t : Timeline World) (ms : Nat) (e : Scheduler.Event) : Timeline World :=
  { t with agenda := t.agenda.enter (t.now + ms) e }

/-- Does what the scheduler asks for. -/
def perform (w : Worker World) (t : Timeline World) : Scheduler.Effect → Timeline World
  | .arm key token delayMs => t.later delayMs (.timer key token)
  | .disarm key token => { t with agenda := t.agenda.drop (.timer key token) }
  | .startRun key epoch reason =>
    let x := w.run t.world key reason
    ({ t.note (.started key reason) with world := x.world }).later x.ms
      (.runEnded key epoch x.outcome)
  | .startTask key epoch request =>
    let x := w.task t.world request
    ({ t.note (.taskStarted key request) with world := x.world }).later x.ms
      (.taskEnded key epoch request x.outcome)
  | .resolve request => t.note (.resolved request)

/-- What is observed of an event itself. -/
def observed (t : Timeline World) : Scheduler.Event → Timeline World
  | .runEnded key _ outcome => t.note (.ended key outcome)
  | _ => t

/-- Tells the scheduler an event and does what it asks for. -/
def tell (settings : SchedulerSettings) (w : Worker World) (t : Timeline World)
    (e : Scheduler.Event) : Timeline World :=
  let (s, effects) := t.scheduler.step settings e
  effects.foldl (perform w) ({ t.observed e with scheduler := s })

/-- A bound for the number of events that can still happen without another request: a waiting
    request needs a timer, a run and perhaps a task. -/
def workload (t : Timeline World) : Nat :=
  t.agenda.length
    + t.scheduler.entries.values.foldl
        (fun n e => n + 3 * e.waiters.length + e.tasks.length) 0
    + t.scheduler.runs.foldl (fun n r => n + r.tasks.length + 1) 0

/-- Lets the next event happen that is due by a time. -/
def next? (settings : SchedulerSettings) (w : Worker World) (deadline : Nat)
    (t : Timeline World) : Option (Timeline World) :=
  (t.agenda.next? deadline).map fun ((due, e), rest) =>
    tell settings w { t with now := max t.now due, agenda := rest } e

/-- Lets events happen that are due by a time, up to a number of them. -/
def runUntil (settings : SchedulerSettings) (w : Worker World) (deadline : Nat) :
    Nat → Timeline World → Timeline World
  | 0, t => t
  | fuel + 1, t =>
    match t.next? settings w deadline with
    | some t' => runUntil settings w deadline fuel t'
    | none => t

/-- Moves the clock on; all that is due by then happens at its time. -/
def advance (settings : SchedulerSettings) (w : Worker World) (ms : Nat) (t : Timeline World) :
    Timeline World :=
  { runUntil settings w (t.now + ms) t.workload t with now := t.now + ms }

/-- Registers a request; it has the number that `requests` then shows. -/
def schedule (settings : SchedulerSettings) (w : Worker World) (r : SyncRequest)
    (t : Timeline World) : Timeline World :=
  tell settings w t (.schedule r)

/-- Drops timers and waiting requests. -/
def clear (settings : SchedulerSettings) (w : Worker World) (t : Timeline World) :
    Timeline World :=
  tell settings w t .clear

/-- Whether a request is resolved. -/
def isResolved (t : Timeline World) (request : Nat) : Bool :=
  t.log.any fun e => e.2 = .resolved request

/-- Moves the clock from one due time to the next until a request is resolved. All that is due at
    that time happens. -/
def await (settings : SchedulerSettings) (w : Worker World) (request : Nat) :
    Nat → Timeline World → Timeline World
  | 0, t => t
  | fuel + 1, t =>
    if t.isResolved request then t
    else match t.agenda with
      | [] => t
      | (due, _) :: _ => await settings w request fuel (advance settings w (due - t.now) t)

/-- Registers a request and waits until it is resolved. -/
def scheduleAndWait (settings : SchedulerSettings) (w : Worker World) (r : SyncRequest)
    (t : Timeline World) : Timeline World :=
  let t' := schedule settings w r t
  await settings w t'.scheduler.requests t'.workload t'

end Timeline

end ProofLedger
