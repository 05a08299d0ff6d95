import ProofLedger.Scheduler.Script

/-!
# The lane of a key

A lane is a scheduler for a single key. It has no tokens and no epochs, since nothing that it waits
for is ever out of date, and it numbers the requests of its key alone. Its clock moves as that of a
timeline does: what is due happens at its time (`upTo`). A lane is what can be seen of a key on a
timeline, so it says in full what the key depends on: its own requests and runs, the clears, and the
time.
-/

namespace ProofLedger

namespace Lane

/-- A request as its key sees it. -/
structure Ask where
  /-- the number among the requests of the key -/
  number : Nat
  reason : SyncReason
  overrideMs : Option Int
  task : Option Work
  deriving DecidableEq, Repr

/-- The delay before a request is served. -/
def Ask.delayMs (settings : SchedulerSettings) (a : Ask) : Nat :=
  settings.delayOf a.reason a.overrideMs

/-- The tasks that come with requests, under the numbers of the requests. -/
def tasksOf (asks : List Ask) : List (Nat × Work) :=
  asks.filterMap fun a => a.task.map (Prod.mk a.number)

theorem tasksOf_concat (asks : List Ask) (ask : Ask) :
    tasksOf (asks ++ [ask]) = tasksOf asks ++ (ask.task.map (Prod.mk ask.number)).toList := by
  unfold tasksOf
  rw [List.filterMap_append]
  cases h : ask.task <;> simp [h]

/-- The next run and those after it; one that nothing is known of ends well and at once. -/
def takeWork : List Work → Work × List Work
  | [] => ({}, [])
  | work :: rest => (work, rest)

/-- What goes on for a key. -/
inductive Doing where
  | nothing
  /-- a run starts when it is due, for the reason of the last request, and takes all of them -/
  | waiting (due : Nat) (reason : SyncReason) (asks : List Ask)
  /-- a run, or one of the tasks that it took, is at work until it is due; with the outcome of the
      run proper as long as that goes on, the requests that it covers, the tasks still to come, and
      the requests that wait for the run after it -/
  | working (due : Nat) (outcome : Option RunOutcome) (covered : List Nat)
    (tasks : List (Nat × Work)) (asks : List Ask)

namespace Doing

/-- The phase of the key. -/
def phase : Doing → Phase
  | nothing => .idle
  | waiting .. => .debouncing
  | working .. => .running

/-- When something happens next, if nothing comes from outside. -/
def due? : Doing → Option Nat
  | nothing => none
  | waiting due _ _ => some due
  | working due _ _ _ _ => some due

/-- The requests that no run has taken yet. -/
def asks : Doing → List Ask
  | nothing => []
  | waiting _ _ asks => asks
  | working _ _ _ _ asks => asks

/-- One more request. -/
def join (settings : SchedulerSettings) (now : Nat) (ask : Ask) : Doing → Doing
  | nothing => waiting (now + ask.delayMs settings) ask.reason [ask]
  | waiting _ _ asks => waiting (now + ask.delayMs settings) ask.reason (asks ++ [ask])
  | working due outcome covered tasks asks => working due outcome covered tasks (asks ++ [ask])

/-- Without the requests that no run has taken. -/
def cleared : Doing → Doing
  | nothing => nothing
  | waiting _ _ _ => nothing
  | working due outcome covered tasks _ => working due outcome covered tasks []

/-- What follows a run that ends at a time: the delay of the last request that waits, if one
    does. -/
def following (settings : SchedulerSettings) (now : Nat) (asks : List Ask) : Doing :=
  match asks.getLast? with
  | none => nothing
  | some last => waiting (now + last.delayMs settings) last.reason asks

/-- How much can happen if nothing comes from outside: of requests that wait a start, an end, and
    the tasks. -/
def weight : Doing → Nat
  | nothing => 0
  | waiting _ _ asks => 2 + (tasksOf asks).length
  | working _ _ _ tasks [] => 1 + tasks.length
  | working _ _ _ tasks asks => 3 + tasks.length + (tasksOf asks).length

theorem weight_following_lt (settings : SchedulerSettings) (now due : Nat)
    (outcome : Option RunOutcome) (covered : List Nat) (asks : List Ask) :
    (following settings now asks).weight < (working due outcome covered [] asks).weight := by
  unfold following
  cases h : asks.getLast? with
  | none =>
    rw [List.getLast?_eq_none_iff.mp h]
    exact Nat.one_pos
  | some last =>
    cases asks with
    | nil => cases h
    | cons ask rest =>
      show 2 + _ < 3 + 0 + _
      omega

end Doing

end Lane

/-- All that the scheduler has to do with a key. -/
structure Lane where
  /-- the runs to come -/
  runs : List Work := []
  /-- the number of requests so far -/
  asked : Nat := 0
  doing : Lane.Doing := .nothing
  /-- milliseconds since the beginning -/
  now : Nat := 0
  /-- what happened so far and when, in order -/
  log : List (Nat × Happening) := []

namespace Lane

variable (settings : SchedulerSettings) (key : String)

/-- Notes what happens at a time. -/
def note (lane : Lane) (time : Nat) (happenings : List Happening) : Lane :=
  { lane with log := lane.log ++ happenings.map (Prod.mk time) }

/-- Registers a request. -/
def request (lane : Lane) (r : SyncRequest) (task : Option Work) : Lane :=
  let ask : Ask := ⟨lane.asked + 1, r.reason, r.overrideMs, task⟩
  { lane with asked := ask.number, doing := lane.doing.join settings lane.now ask }

/-- Drops the requests that no run has taken. -/
def clear (lane : Lane) : Lane :=
  let dropped := lane.doing.asks.map (·.number)
  note { lane with doing := lane.doing.cleared } lane.now (dropped.map .resolved)

/-- Lets the next thing happen, at its time. -/
def proceed (lane : Lane) : Lane :=
  match lane.doing with
  | .nothing => lane
  | .waiting due reason asks =>
    let run := takeWork lane.runs
    let covered := asks.map (·.number)
    let doing := .working (due + run.1.ms) (some run.1.outcome) covered (tasksOf asks) []
    note { lane with runs := run.2, doing } due [.started key reason]
  | .working due outcome covered tasks asks =>
    let ended := (outcome.map (Happening.ended key)).toList
    match tasks with
    | (number, work) :: rest =>
      let doing := .working (due + work.ms) none covered rest asks
      note { lane with doing } due (ended ++ [Happening.taskStarted key number])
    | [] =>
      let doing := .following settings due asks
      note { lane with doing } due (ended ++ covered.map Happening.resolved)

theorem asked_proceed (lane : Lane) : (lane.proceed settings key).asked = lane.asked := by
  unfold proceed
  cases lane.doing with
  | nothing | waiting => rfl
  | working due outcome covered tasks asks => cases tasks <;> rfl

/-- Whether something happens by a time. -/
def DueBy (lane : Lane) (deadline : Nat) : Prop := ∃ due ∈ lane.doing.due?, due ≤ deadline

instance (lane : Lane) (deadline : Nat) : Decidable (lane.DueBy deadline) :=
  match h : lane.doing.due? with
  | none => isFalse fun ⟨_, hdue, _⟩ => nomatch h.symm.trans hdue
  | some due => decidable_of_iff (due ≤ deadline)
    ⟨fun hle => ⟨due, h, hle⟩, fun ⟨_, hdue, hle⟩ => Option.some.inj (h.symm.trans hdue) ▸ hle⟩

/-- What happens lessens what can still happen. -/
theorem weight_proceed_lt {lane : Lane} {deadline : Nat} (h : lane.DueBy deadline) :
    (lane.proceed settings key).doing.weight < lane.doing.weight := by
  obtain ⟨runs, asked, doing, now, log⟩ := lane
  obtain ⟨_, hdue, _⟩ := h
  cases doing with
  | nothing => cases hdue
  | waiting due reason asks =>
    show 1 + (tasksOf asks).length < 2 + (tasksOf asks).length
    omega
  | working due outcome covered tasks asks =>
    cases tasks with
    | nil => exact Doing.weight_following_lt settings due due outcome covered asks
    | cons task rest =>
      cases asks with
      | nil =>
        show 1 + rest.length < 1 + (rest.length + 1)
        omega
      | cons ask later =>
        show 3 + rest.length + _ < 3 + (rest.length + 1) + _
        omega

/-- Lets everything happen that is due by a time. -/
def upTo (deadline : Nat) (lane : Lane) : Lane :=
  if lane.DueBy deadline then upTo deadline (lane.proceed settings key) else lane
termination_by lane.doing.weight
decreasing_by exact weight_proceed_lt settings key ‹_›

theorem upTo_of_dueBy {lane : Lane} {deadline : Nat} (h : lane.DueBy deadline) :
    lane.upTo settings key deadline = (lane.proceed settings key).upTo settings key deadline := by
  rw [upTo, if_pos h]

theorem upTo_of_not_dueBy {lane : Lane} {deadline : Nat} (h : ¬ lane.DueBy deadline) :
    lane.upTo settings key deadline = lane := by
  rw [upTo, if_neg h]

/-- Takes a step of a script; requests of other keys are of no account. -/
def step (lane : Lane) : Script.Step → Lane
  | .schedule r task => if r.key = key then lane.request settings r task else lane
  | .advance ms => { lane.upTo settings key (lane.now + ms) with now := lane.now + ms }
  | .clear => lane.clear

/-- The lane after steps. -/
def after (runs : List Work) (steps : List Script.Step) : Lane :=
  steps.foldl (step settings key) { runs }

end Lane

-- ── Steps of a key ────────────────────────────────────────────────────────────

/-- Whether a step is anything but a request of another key. -/
def Script.Step.concerns (key : String) : Script.Step → Bool
  | .schedule r _ => r.key = key
  | _ => true

/-- Steps that do not concern the key of a lane can be left out. -/
theorem Lane.after_concerns (settings : SchedulerSettings) (key : String) (runs : List Work)
    (steps : List Script.Step) :
    after settings key runs (steps.filter (·.concerns key)) = after settings key runs steps := by
  unfold after
  generalize ({ runs } : Lane) = lane
  induction steps generalizing lane with
  | nil => rfl
  | cons x rest ih =>
    by_cases h : x.concerns key = true
    · rw [List.filter_cons_of_pos h, List.foldl_cons, List.foldl_cons, ih]
    · rw [List.filter_cons_of_neg h, List.foldl_cons, ih]
      cases x with
      | schedule r task =>
        have hkey : r.key ≠ key := fun hr => h (decide_eq_true hr)
        rw [step, if_neg hkey]
      | advance ms => exact absurd rfl h
      | clear => exact absurd rfl h

end ProofLedger
