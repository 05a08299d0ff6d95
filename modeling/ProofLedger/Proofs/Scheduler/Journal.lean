import Mathlib.Data.List.DropRight
import ProofLedger.Proofs.Scheduler.Invariant

/-!
# The journal of the scheduler

A journal notes what is seen of the scheduler's work: requests registered, runs started, ended and
finished, tasks started and ended, requests dropped by a clear. It knows nothing of timers, tokens
and epochs. What the scheduler keeps for a key can be read off the journal (`recorded_after`): the
requests that wait are those registered since the last start of a run of the key and since the last
clear, and a run in flight has taken the requests that waited when it started.
-/

namespace ProofLedger.Scheduler

variable {settings : SchedulerSettings}

-- ── Sightings ─────────────────────────────────────────────────────────────────

/-- What is seen of the scheduler's work. -/
inductive Sighting where
  /-- a request is registered under its number -/
  | registered (number : Nat) (request : SyncRequest)
  | started (key : String) (reason : SyncReason)
  /-- the run proper has ended; its tasks are still to come -/
  | ended (key : String) (outcome : RunOutcome)
  | taskStarted (key : String) (number : Nat)
  | taskEnded (key : String) (number : Nat)
  /-- a run is over and the requests that it covers are resolved -/
  | finished (key : String) (covered : List Nat)
  /-- the requests that no run has taken are resolved -/
  | cleared (dropped : List Nat)
  deriving DecidableEq, Repr

namespace Sighting

/-- The request that is registered, if it is one of the key. -/
def request? (key : String) : Sighting → Option (Nat × SyncRequest)
  | .registered n r => if r.key = key then some (n, r) else none
  | _ => none

/-- The request that is registered, of whatever key. -/
def registered? : Sighting → Option (Nat × SyncRequest)
  | .registered n r => some (n, r)
  | _ => none

/-- Whether no request of the key waits afterwards. -/
def empties (key : String) : Sighting → Bool
  | .started k _ => k = key
  | .cleared _ => true
  | _ => false

/-- Whether a run of the key is concerned. -/
def isWork (key : String) : Sighting → Bool
  | .started k _ => k = key
  | .ended k _ => k = key
  | .taskStarted k _ => k = key
  | .taskEnded k _ => k = key
  | .finished k _ => k = key
  | _ => false

/-- Whether it leaves the requests that wait for the key as they are. -/
def Still (key : String) (σ : Sighting) : Prop := σ.request? key = none ∧ σ.empties key = false

end Sighting

/-- The requests that effects resolve, in order. -/
def resolvedBy (effects : List Effect) : List Nat :=
  effects.filterMap fun
    | .resolve n => some n
    | _ => none

/-- What is seen when the run of a key goes on: to its next task, or to its end. -/
def onward (key : String) : List Effect → Sighting
  | [.startTask _ _ n] => .taskStarted key n
  | effects => .finished key (resolvedBy effects)

/-- What is seen of an event, given its effects and the number that a request would get. An end of
    a run or task that asks for nothing is one that is no longer awaited. -/
def seen (number : Nat) : Event → List Effect → List Sighting
  | .schedule r, _ => [.registered number r]
  | .timer _ _, effects => effects.filterMap fun
    | .startRun key _ reason => some (.started key reason)
    | _ => none
  | .runEnded _ _ _, [] => []
  | .runEnded key _ outcome, effects => [.ended key outcome, onward key effects]
  | .taskEnded _ _ _ _, [] => []
  | .taskEnded key _ n _, effects => [.taskEnded key n, onward key effects]
  | .clear, effects => [.cleared (resolvedBy effects)]

/-- What is seen of events, in order. -/
def journal (settings : SchedulerSettings) : Scheduler → List Event → List Sighting
  | _, [] => []
  | s, e :: rest =>
    seen (s.requests + 1) e (s.step settings e).2 ++ journal settings (s.step settings e).1 rest

/-- What is seen of some events and then of others. -/
theorem journal_append (s : Scheduler) (a b : List Event) :
    journal settings s (a ++ b) =
      journal settings s a ++ journal settings (after settings s a) b := by
  induction a generalizing s with
  | nil => rfl
  | cons e a ih =>
    rw [List.cons_append, journal, journal, ih, List.append_assoc]
    rfl

/-- What is seen of one more event. -/
theorem journal_concat (s : Scheduler) (events : List Event) (e : Event) :
    journal settings s (events ++ [e]) =
      journal settings s events ++
        seen ((after settings s events).requests + 1) e
          ((after settings s events).step settings e).2 := by
  rw [journal_append, journal, journal, List.append_nil]

-- ── What a journal says of a key ──────────────────────────────────────────────

/-- The requests with their numbers, in the order of registration. -/
def registry (j : List Sighting) : List (Nat × SyncRequest) :=
  j.filterMap Sighting.registered?

/-- The requests of a key among them. -/
def requestsOf (key : String) (j : List Sighting) : List (Nat × SyncRequest) :=
  j.filterMap (·.request? key)

/-- The requests of a key that wait for a run: those registered since its last run started and
    since the last clear. -/
def waiting (key : String) (j : List Sighting) : List (Nat × SyncRequest) :=
  requestsOf key (j.rtakeWhile fun σ => !σ.empties key)

/-- The numbers of the requests that have a task. -/
def tasksOf (requests : List (Nat × SyncRequest)) : List Nat :=
  (requests.filter (·.2.hasTask)).map (·.1)

/-- The part of a journal that concerns runs of a key. -/
def workOf (key : String) (j : List Sighting) : List Sighting := j.filter (·.isWork key)

/-- A task is started and ends. -/
def turn (key : String) (n : Nat) : List Sighting := [.taskStarted key n, .taskEnded key n]

/-- What is seen of a run after its start: it ends, its tasks take their turns, and the requests
    that it covers are resolved. -/
def round (key : String) (outcome : RunOutcome) (tasks covered : List Nat) : List Sighting :=
  .ended key outcome :: tasks.flatMap (turn key) ++ [.finished key covered]

/-- The requests that wait after one more sighting. -/
theorem waiting_concat (key : String) (j : List Sighting) (σ : Sighting) :
    waiting key (j ++ [σ]) =
      if σ.empties key then [] else waiting key j ++ (σ.request? key).toList := by
  unfold waiting
  by_cases h : σ.empties key = true
  · rw [List.rtakeWhile_concat_neg _ _ _ (by simp [h]), if_pos h]
    rfl
  · rw [List.rtakeWhile_concat_pos _ _ _ (by simp [h]), if_neg h, requestsOf, requestsOf,
      List.filterMap_append]
    cases hr : σ.request? key <;> simp [hr]

/-- Sightings that are of no account to a key leave its requests waiting. -/
theorem waiting_still {key : String} {more : List Sighting} (h : ∀ σ ∈ more, σ.Still key)
    (j : List Sighting) : waiting key (j ++ more) = waiting key j := by
  induction more using List.reverseRecOn with
  | nil => rw [List.append_nil]
  | append_singleton more σ ih =>
    obtain ⟨hrequest, hempties⟩ := h σ (by simp)
    rw [← List.append_assoc, waiting_concat, hempties, hrequest,
      ih fun τ hτ => h τ (List.mem_append_left _ hτ)]
    exact List.append_nil _

/-- A request that is registered waits behind the others of its key. -/
theorem waiting_registered (key : String) (j : List Sighting) (n : Nat) (r : SyncRequest) :
    waiting key (j ++ [.registered n r]) =
      waiting key j ++ if r.key = key then [(n, r)] else [] := by
  rw [waiting_concat, if_neg (by simp [Sighting.empties]), Sighting.request?]
  by_cases h : r.key = key <;> simp [h]

/-- A run that starts takes the requests of its key. -/
theorem waiting_started (key : String) (j : List Sighting) (k : String) (reason : SyncReason) :
    waiting key (j ++ [.started k reason]) = if k = key then [] else waiting key j := by
  rw [waiting_concat]
  by_cases h : k = key <;> simp [Sighting.empties, Sighting.request?, h]

/-- After a clear nothing waits. -/
theorem waiting_cleared (key : String) (j : List Sighting) (dropped : List Nat) :
    waiting key (j ++ [.cleared dropped]) = [] := by
  rw [waiting_concat]
  exact if_pos rfl

/-- Only registered requests wait, in the order in which they were registered. -/
theorem waiting_sublist (key : String) (j : List Sighting) :
    (waiting key j).Sublist (requestsOf key j) :=
  (List.rtakeWhile_suffix _ _).sublist.filterMap _

/-- The registry lists the registered requests. -/
theorem mem_registry {j : List Sighting} {n : Nat} {r : SyncRequest} :
    (n, r) ∈ registry j ↔ .registered n r ∈ j := by
  rw [registry, List.mem_filterMap]
  constructor
  · rintro ⟨σ, hσ, h⟩
    cases σ <;> cases h
    exact hσ
  · exact fun h => ⟨_, h, rfl⟩

/-- The requests of a key are those in the registry with this key. -/
theorem requestsOf_eq (key : String) (j : List Sighting) :
    requestsOf key j = (registry j).filter fun x => x.2.key = key := by
  rw [requestsOf, registry, List.filter_filterMap]
  congr 1
  funext σ
  cases σ with
  | registered n r =>
    show (if r.key = key then some (n, r) else none) = Option.filter _ (some (n, r))
    by_cases h : r.key = key <;> simp [h, Option.filter_some]
  | _ => rfl

theorem mem_requestsOf {key : String} {j : List Sighting} {n : Nat} {r : SyncRequest} :
    (n, r) ∈ requestsOf key j ↔ .registered n r ∈ j ∧ r.key = key := by
  rw [requestsOf_eq, List.mem_filter, mem_registry, decide_eq_true_eq]

/-- A request that waits was registered for the key that it waits for. -/
theorem registered_of_waiting {key : String} {j : List Sighting} {n : Nat} {r : SyncRequest}
    (h : (n, r) ∈ waiting key j) : .registered n r ∈ j ∧ r.key = key :=
  mem_requestsOf.mp ((waiting_sublist key j).subset h)

theorem workOf_append (key : String) (a b : List Sighting) :
    workOf key (a ++ b) = workOf key a ++ workOf key b := List.filter_append _ _

/-- Without work nothing is seen of the work on a key. -/
theorem workOf_eq_nil {key : String} {j : List Sighting} (h : ∀ σ ∈ j, σ.isWork key = false) :
    workOf key j = [] :=
  List.filter_eq_nil_iff.mpr fun σ hσ => by simp [h σ hσ]

-- ── What is seen of a move ────────────────────────────────────────────────────

/-- What is seen when the event that a run waits for has come. -/
def Run.closing (r : Run) (outcome : RunOutcome) : Sighting :=
  match r.stage with
  | .runner => .ended r.key outcome
  | .task n => .taskEnded r.key n

/-- Effects that resolve requests resolve these requests. -/
theorem resolvedBy_map_resolve (numbers : List Nat) :
    resolvedBy (numbers.map .resolve) = numbers := by
  rw [resolvedBy, List.filterMap_map]
  exact List.filterMap_some

theorem resolvedBy_append (a b : List Effect) :
    resolvedBy (a ++ b) = resolvedBy a ++ resolvedBy b := List.filterMap_append

/-- A request is resolved if this is one of the effects. -/
theorem mem_resolvedBy {effects : List Effect} {n : Nat} :
    n ∈ resolvedBy effects ↔ .resolve n ∈ effects := by
  rw [resolvedBy, List.mem_filterMap]
  constructor
  · rintro ⟨effect, hmem, h⟩
    cases effect <;> cases h
    exact hmem
  · exact fun h => ⟨_, h, rfl⟩

/-- The end of one piece of work and the start of a task are seen. -/
theorem seen_nextTask (r : Run) (outcome : RunOutcome) (number n : Nat) :
    seen number (r.awaited outcome) [.startTask r.key r.epoch n] =
      [r.closing outcome, .taskStarted r.key n] := by
  unfold Run.awaited Run.closing
  cases r.stage <;> rfl

/-- The end of the last piece of work and the end of the run are seen. -/
private theorem seen_finish {r : Run} {effects : List Effect}
    (hresolved : resolvedBy effects = r.waiters) (hcovers : r.waiters ≠ [])
    (hno : ∀ key epoch n, effects ≠ [.startTask key epoch n]) (outcome : RunOutcome)
    (number : Nat) :
    seen number (r.awaited outcome) effects = [r.closing outcome, .finished r.key r.waiters] := by
  have honward : onward r.key effects = .finished r.key r.waiters := by
    rw [← hresolved]
    unfold onward
    split
    · next key epoch n => exact absurd rfl (hno _ _ _)
    · rfl
  cases effects with
  | nil => exact absurd hresolved.symm hcovers
  | cons f rest =>
    unfold Run.awaited Run.closing
    cases r.stage with
    | runner => exact congrArg (fun σ => [Sighting.ended r.key outcome, σ]) honward
    | task n => exact congrArg (fun σ => [Sighting.taskEnded r.key n, σ]) honward

/-- A run that ends resolves what it covers, which is never nothing. -/
theorem seen_ended {r : Run} (hcovers : r.waiters ≠ []) (outcome : RunOutcome) (number : Nat) :
    seen number (r.awaited outcome) (r.waiters.map .resolve) =
      [r.closing outcome, .finished r.key r.waiters] := by
  refine seen_finish (resolvedBy_map_resolve _) hcovers (fun key epoch n h => ?_) outcome number
  cases hw : r.waiters <;> simp [hw] at h

/-- The end of a run is seen, and not that a timer is armed for the next one. -/
theorem seen_followed {r : Run} (hcovers : r.waiters ≠ []) (outcome : RunOutcome)
    (number token ms : Nat) :
    seen number (r.awaited outcome) (.arm r.key token ms :: r.waiters.map .resolve) =
      [r.closing outcome, .finished r.key r.waiters] := by
  have hresolved : resolvedBy (.arm r.key token ms :: r.waiters.map .resolve) = r.waiters :=
    resolvedBy_map_resolve r.waiters
  exact seen_finish hresolved hcovers (by simp) outcome number

/-- Nothing is seen of an event that the scheduler does not heed. -/
theorem seen_stale {s : Scheduler} {event : Event} (hstale : ¬ s.Heeds event) (number : Nat) :
    seen number event [] = [] := by
  cases event with
  | schedule r => exact absurd trivial hstale
  | clear => exact absurd trivial hstale
  | _ => rfl

-- ── The state and the journal ─────────────────────────────────────────────────

/-- What the entry of a key keeps of the requests that wait: their numbers, which of them have a
    task, and reason and override of the last one. -/
inductive Carries : Option Entry → List (Nat × SyncRequest) → Prop where
  | idle : Carries none []
  | stored {e : Entry} {requests : List (Nat × SyncRequest)}
    (hwaiters : e.waiters = requests.map (·.1)) (htasks : e.tasks = tasksOf requests)
    (hlast : ∀ last ∈ requests.getLast?,
      e.reason = last.2.reason ∧ e.overrideMs = last.2.overrideMs) :
    Carries (some e) requests

/-- How far a run is, given the tasks that it has taken and what was seen of it since its start. -/
inductive Progress (r : Run) : List Nat → List Sighting → Prop where
  | runner (hstage : r.stage = .runner) : Progress r r.tasks []
  | task {n : Nat} (done : List Nat) (outcome : RunOutcome) (hstage : r.stage = .task n) :
    Progress r (done ++ n :: r.tasks)
      (.ended r.key outcome :: done.flatMap (turn r.key) ++ [.taskStarted r.key n])

/-- The journal tells of the start of a run: the run has taken the requests that waited then. -/
def UnderWay (j : List Sighting) (r : Run) : Prop :=
  ∃ opening closing, j = opening ++ .started r.key r.reason :: closing ∧
    (∃ last, (waiting r.key opening).getLast? = some last ∧ r.reason = last.2.reason) ∧
    r.waiters = (waiting r.key opening).map (·.1) ∧
    Progress r (tasksOf (waiting r.key opening)) (workOf r.key closing)

/-- The journal accounts for what the scheduler keeps. -/
structure Recorded (s : Scheduler) (j : List Sighting) : Prop where
  numbers : (registry j).map (·.1) = List.range' 1 s.requests
  entries : ∀ key, Carries (s.entries.get? key) (waiting key j)
  flights : ∀ {key r}, s.flight? key = some r → UnderWay j r

/-- An entry keeps the numbers of the requests that wait. -/
theorem Carries.waiters {e : Entry} {requests : List (Nat × SyncRequest)}
    (h : Carries (some e) requests) : e.waiters = requests.map (·.1) := by
  cases h with
  | stored hwaiters => exact hwaiters

/-- One more request is registered. -/
theorem Carries.join {e : Entry} {requests : List (Nat × SyncRequest)}
    (h : Carries (some e) requests) (n : Nat) (r : SyncRequest) :
    Carries (some (e.join n r)) (requests ++ [(n, r)]) := by
  cases h with
  | stored hwaiters htasks hlast =>
    refine .stored ?_ ?_ ?_
    · rw [List.map_append, ← hwaiters]
      rfl
    · rw [tasksOf, List.filter_append, List.map_append]
      show (if r.hasTask then e.tasks ++ [n] else e.tasks) = tasksOf requests ++ _
      rw [htasks]
      by_cases ht : r.hasTask = true <;> simp [ht]
    · intro last hmem
      rw [List.getLast?_append, List.getLast?_singleton, Option.some_or] at hmem
      cases hmem
      exact ⟨rfl, rfl⟩

/-- A timer that is armed does not change what the entry keeps of the requests. -/
theorem Carries.congr {e f : Entry} {requests : List (Nat × SyncRequest)}
    (h : Carries (some e) requests) (hwaiters : f.waiters = e.waiters)
    (htasks : f.tasks = e.tasks) (hreason : f.reason = e.reason)
    (hoverride : f.overrideMs = e.overrideMs) : Carries (some f) requests := by
  cases h with
  | stored hw ht hlast =>
    refine .stored (hwaiters.trans hw) (htasks.trans ht) fun last hmem => ?_
    rw [hreason, hoverride]
    exact hlast last hmem

/-- A run stays under way as long as no other work on its key is seen. -/
theorem UnderWay.extend {j more : List Sighting} {r : Run} (h : UnderWay j r)
    (hno : ∀ σ ∈ more, σ.isWork r.key = false) : UnderWay (j ++ more) r := by
  obtain ⟨opening, closing, rfl, hlast, hwaiters, hprogress⟩ := h
  refine ⟨opening, closing ++ more, by simp, hlast, hwaiters, ?_⟩
  rw [workOf_append, workOf_eq_nil hno, List.append_nil]
  exact hprogress

/-- A run that goes on to its next task has done one more. -/
theorem Progress.next {r : Run} {tasks rest : List Nat} {work : List Sighting} {n : Nat}
    (h : Progress r tasks work) (htasks : r.tasks = n :: rest) (outcome : RunOutcome) :
    Progress { r with stage := .task n, tasks := rest } tasks
      (work ++ [r.closing outcome, .taskStarted r.key n]) := by
  cases h with
  | runner hstage =>
    rw [htasks, Run.closing, hstage]
    exact .task [] outcome rfl
  | @task m done o hstage =>
    have hmore := Progress.task (r := { r with stage := .task n, tasks := rest }) (n := n)
      (done ++ [m]) o rfl
    rw [htasks, Run.closing, hstage]
    simpa [turn] using hmore

/-- A run without further tasks that ends has gone its round. -/
theorem Progress.finish {r : Run} {tasks : List Nat} {work : List Sighting}
    (h : Progress r tasks work) (htasks : r.tasks = []) (outcome : RunOutcome)
    (covered : List Nat) :
    ∃ o, work ++ [r.closing outcome, .finished r.key covered] = round r.key o tasks covered := by
  cases h with
  | runner hstage =>
    refine ⟨outcome, ?_⟩
    rw [htasks, Run.closing, hstage]
    rfl
  | @task n done o hstage =>
    refine ⟨o, ?_⟩
    rw [htasks, Run.closing, hstage]
    simp [round, turn]

/-- The tasks that are still to come are among those that the run has taken. -/
theorem Progress.tasks_sublist {r : Run} {tasks : List Nat} {work : List Sighting}
    (h : Progress r tasks work) : r.tasks.Sublist tasks := by
  cases h with
  | runner => exact .refl _
  | @task n done => exact (List.sublist_cons_self n r.tasks).trans (List.sublist_append_right _ _)

-- ── Every move is recorded ────────────────────────────────────────────────────

/-- The end of a piece of work registers no request. -/
theorem Run.closing_request? (r : Run) (outcome : RunOutcome) (key : String) :
    (r.closing outcome).request? key = none := by
  unfold Run.closing
  cases r.stage <;> rfl

theorem Run.closing_registered? (r : Run) (outcome : RunOutcome) :
    (r.closing outcome).registered? = none := by
  unfold Run.closing
  cases r.stage <;> rfl

/-- The end of a piece of work takes no requests from those that wait. -/
theorem Run.closing_empties (r : Run) (outcome : RunOutcome) (key : String) :
    (r.closing outcome).empties key = false := by
  unfold Run.closing
  cases r.stage <;> rfl

/-- The end of a piece of work is work on the key of the run. -/
theorem Run.closing_isWork (r : Run) (outcome : RunOutcome) (key : String) :
    (r.closing outcome).isWork key = decide (r.key = key) := by
  unfold Run.closing
  cases r.stage <;> rfl

/-- Both sightings at the end of a piece of work are work on the key of the run. -/
theorem workOf_closing (r : Run) (outcome : RunOutcome) (σ : Sighting)
    (h : σ.isWork r.key = true) :
    workOf r.key [r.closing outcome, σ] = [r.closing outcome, σ] := by
  refine List.filter_eq_self.mpr fun τ hτ => ?_
  rcases List.mem_pair.mp hτ with rfl | rfl
  · rw [r.closing_isWork, decide_eq_true rfl]
  · exact h

/-- The end of a piece of work leaves requests waiting, if what follows does. -/
theorem still_closing (key : String) (r : Run) (outcome : RunOutcome) {σ : Sighting}
    (h : σ.Still key) : ∀ τ ∈ [r.closing outcome, σ], τ.Still key := by
  intro τ hτ
  rcases List.mem_pair.mp hτ with rfl | rfl
  · exact ⟨r.closing_request? outcome key, r.closing_empties outcome key⟩
  · exact h

/-- The registry lists requests in the order in which they were registered. -/
theorem registry_append (a b : List Sighting) :
    registry (a ++ b) = registry a ++ registry b := List.filterMap_append

theorem registry_closing (r : Run) (outcome : RunOutcome) {σ : Sighting}
    (h : σ.registered? = none) : registry [r.closing outcome, σ] = [] := by
  rw [registry, List.filterMap_cons_none (r.closing_registered? outcome),
    List.filterMap_cons_none h]
  rfl

/-- What is registered is the next number, and only by a request. -/
theorem numbers_move {s t : Scheduler} {event : Event} {effects : List Effect}
    (hmove : Move settings s event t effects) :
    List.range' 1 t.requests =
      List.range' 1 s.requests ++
        (registry (seen (s.requests + 1) event effects)).map (·.1) := by
  have hnext : List.range' 1 (s.requests + 1) = List.range' 1 s.requests ++ [s.requests + 1] := by
    rw [List.range'_1_concat, Nat.add_comm 1]
  cases hmove with
  | opened | rearmed | queued => exact hnext
  | fired => exact (List.append_nil _).symm
  | nextTask =>
    rw [seen_nextTask, registry_closing _ _ rfl]
    exact (List.append_nil _).symm
  | ended outcome hr htasks hget hphase hnone hcovers =>
    rw [seen_ended hcovers, registry_closing _ _ rfl]
    exact (List.append_nil _).symm
  | followed outcome hr htasks hget hphase hsome hcovers =>
    rw [seen_followed hcovers, registry_closing _ _ rfl]
    exact (List.append_nil _).symm
  | cleared => exact (List.append_nil _).symm
  | ignored event hstale =>
    rw [seen_stale hstale]
    exact (List.append_nil _).symm

/-- What is seen of an event says nothing of the requests of other keys. -/
theorem still_other {s t : Scheduler} {event : Event} {effects : List Effect}
    (hmove : Move settings s event t effects) (hclear : event ≠ .clear) {key : String}
    (hkey : event.key? ≠ some key) :
    ∀ σ ∈ seen (s.requests + 1) event effects, σ.Still key := by
  cases hmove with
  | opened r | rearmed r | queued r =>
    intro σ hσ
    rw [List.mem_singleton.mp hσ]
    exact ⟨if_neg fun he => hkey (congrArg some he), rfl⟩
  | fired =>
    intro σ hσ
    rw [List.mem_singleton.mp hσ]
    exact ⟨rfl, decide_eq_false fun he => hkey (congrArg some he)⟩
  | nextTask =>
    rw [seen_nextTask]
    exact still_closing key _ _ ⟨rfl, rfl⟩
  | ended outcome hr htasks hget hphase hnone hcovers =>
    rw [seen_ended hcovers]
    exact still_closing key _ _ ⟨rfl, rfl⟩
  | followed outcome hr htasks hget hphase hsome hcovers =>
    rw [seen_followed hcovers]
    exact still_closing key _ _ ⟨rfl, rfl⟩
  | cleared => exact absurd rfl hclear
  | ignored event hstale =>
    rw [seen_stale hstale]
    exact fun σ hσ => nomatch hσ

/-- The key of an event keeps the requests that wait for it. -/
private theorem carries_own {s : Scheduler} {key : String} {j : List Sighting} {event : Event}
    {e e' : Option Entry} {r r' : Option Run} {effects : List Effect}
    (h : Carries e (waiting key j))
    (hchange : Change settings s key event e r e' r' effects) :
    Carries e' (waiting key (j ++ seen (s.requests + 1) event effects)) := by
  cases hchange with
  | opened q epoch token hkey =>
    show Carries _ (waiting key (j ++ [.registered (s.requests + 1) q]))
    rw [waiting_registered, if_pos hkey]
    generalize waiting key j = requests at h
    cases h with
    | idle =>
      have hfresh : Carries (some (Entry.fresh epoch q.reason)) [] := .stored rfl rfl (by simp)
      exact (hfresh.join (s.requests + 1) q).congr rfl rfl rfl rfl
  | rearmed q token hkey =>
    show Carries _ (waiting key (j ++ [.registered (s.requests + 1) q]))
    rw [waiting_registered, if_pos hkey]
    exact (h.join (s.requests + 1) q).congr rfl rfl rfl rfl
  | queued q hkey =>
    show Carries _ (waiting key (j ++ [.registered (s.requests + 1) q]))
    rw [waiting_registered, if_pos hkey]
    exact h.join (s.requests + 1) q
  | @fired e =>
    have hnone := (waiting_started key j key e.reason).trans (if_pos rfl)
    refine Eq.subst (motive := Carries _) hnone.symm ?_
    exact .stored rfl rfl (by simp)
  | @nextTask e r n rest outcome hkey =>
    subst hkey
    rw [seen_nextTask, waiting_still (still_closing _ r outcome ⟨rfl, rfl⟩)]
    exact h
  | @ended e r outcome hkey htasks hnone hcovers =>
    rw [seen_ended hcovers, waiting_still (still_closing _ r outcome ⟨rfl, rfl⟩)]
    have hempty := h.waiters
    rw [hnone] at hempty
    rw [List.map_eq_nil_iff.mp hempty.symm]
    exact .idle
  | @followed e r outcome token hkey htasks hsome hcovers =>
    subst hkey
    rw [seen_followed hcovers, waiting_still (still_closing _ r outcome ⟨rfl, rfl⟩)]
    exact h.congr rfl rfl rfl rfl
  | ignored hstale =>
    rw [seen_stale hstale, List.append_nil]
    exact h

/-- Every event keeps the requests that wait for a key. -/
private theorem carries_move {s t : Scheduler} {event : Event} {effects : List Effect}
    (hs : s.Sound) (hmove : Move settings s event t effects) {j : List Sighting} {key : String}
    (h : Carries (s.entries.get? key) (waiting key j)) :
    Carries (t.entries.get? key) (waiting key (j ++ seen (s.requests + 1) event effects)) := by
  by_cases hclear : event = .clear
  · subst hclear
    obtain ⟨rfl, rfl⟩ := hmove.of_clear
    rw [get?_clear]
    refine Eq.subst (motive := Carries _) (waiting_cleared key j _).symm ?_
    cases s.entries.get? key with
    | none => exact .idle
    | some e =>
      rw [Option.bind_some]
      split
      · exact .stored rfl rfl (by simp)
      · exact .idle
  · by_cases hkey : event.key? = some key
    · exact carries_own h (hmove.change hs hkey)
    · rw [(hmove.frame hs hclear hkey).1, waiting_still (still_other hmove hclear hkey)]
      exact h

/-- What is seen of an event is no work of another key. -/
theorem isWork_other {s t : Scheduler} {event : Event} {effects : List Effect}
    (hmove : Move settings s event t effects) {key : String} (hkey : event.key? ≠ some key) :
    ∀ σ ∈ seen (s.requests + 1) event effects, σ.isWork key = false := by
  have hpair : ∀ (r : Run) (outcome : RunOutcome) (σ : Sighting),
      (r.awaited outcome).key? ≠ some key → σ.isWork key = decide (r.key = key) →
      ∀ τ ∈ [r.closing outcome, σ], τ.isWork key = false := by
    intro r outcome σ hother hσ τ hτ
    rw [Run.awaited_key?] at hother
    have hne : ¬ r.key = key := fun he => hother (congrArg some he)
    rcases List.mem_pair.mp hτ with rfl | rfl
    · rw [r.closing_isWork, decide_eq_false hne]
    · rw [hσ, decide_eq_false hne]
  cases hmove with
  | opened r | rearmed r | queued r =>
    intro σ hσ
    rw [List.mem_singleton.mp hσ]
    rfl
  | @fired k e =>
    intro σ hσ
    rw [List.mem_singleton.mp hσ]
    exact decide_eq_false fun he => hkey (congrArg some he)
  | nextTask =>
    rw [seen_nextTask]
    exact hpair _ _ _ hkey rfl
  | ended outcome hr htasks hget hphase hnone hcovers =>
    rw [seen_ended hcovers]
    exact hpair _ _ _ hkey rfl
  | followed outcome hr htasks hget hphase hsome hcovers =>
    rw [seen_followed hcovers]
    exact hpair _ _ _ hkey rfl
  | cleared =>
    intro σ hσ
    rw [List.mem_singleton.mp hσ]
    rfl
  | ignored event hstale =>
    rw [seen_stale hstale]
    exact fun σ hσ => nomatch hσ

/-- A run of the key of an event is under way afterwards. -/
private theorem underWay_own {s : Scheduler} {key : String} {j : List Sighting} {event : Event}
    {e e' : Option Entry} {r r' : Option Run} {effects : List Effect} (hstanding : Standing e r)
    (hcarries : Carries e (waiting key j)) (h : ∀ q, r = some q → UnderWay j q)
    (hchange : Change settings s key event e r e' r' effects) :
    ∀ q, r' = some q → UnderWay (j ++ seen (s.requests + 1) event effects) q := by
  intro q hq
  cases hchange with
  | opened => cases hq
  | rearmed => cases hq
  | @queued p e q' hkey hphase =>
    cases hq
    refine (h q rfl).extend fun σ hσ => ?_
    rw [List.mem_singleton.mp hσ]
    rfl
  | @fired e hphase =>
    cases hq
    generalize hrequests : waiting key j = requests at hcarries
    cases hcarries with
    | stored hwaiters htasks hlast =>
      refine ⟨j, [], rfl, ?_, ?_, ?_⟩
      · show ∃ last, (waiting key j).getLast? = some last ∧ e.reason = last.2.reason
        have hsome : requests ≠ [] := by
          cases hstanding with
          | debouncing _ _ hne =>
            rintro rfl
            exact hne hwaiters
        rw [hrequests, List.getLast?_eq_some_getLast hsome]
        exact ⟨_, rfl, (hlast _ (List.getLast?_eq_some_getLast hsome)).1⟩
      · show e.waiters = (waiting key j).map (·.1)
        rw [hrequests]
        exact hwaiters
      · show Progress (e.run key) (tasksOf (waiting key j)) []
        rw [hrequests, ← htasks]
        exact .runner rfl
  | @nextTask e p n rest outcome hkey htasks =>
    cases hq
    subst hkey
    obtain ⟨opening, closing, hj, hlast, hwaiters, hprogress⟩ := h p rfl
    rw [seen_nextTask]
    refine ⟨opening, closing ++ [p.closing outcome, .taskStarted p.key n], by simp [hj], hlast,
      hwaiters, ?_⟩
    rw [workOf_append, workOf_closing p outcome (.taskStarted p.key n) (decide_eq_true rfl)]
    exact hprogress.next htasks outcome
  | ended => cases hq
  | followed => cases hq
  | ignored hstale =>
    rw [seen_stale hstale, List.append_nil]
    exact h q hq

/-- Every event keeps the journal in step with the state. -/
theorem Recorded.move {s t : Scheduler} {event : Event} {effects : List Effect}
    {j : List Sighting} (hs : s.Sound) (h : Recorded s j)
    (hmove : Move settings s event t effects) :
    Recorded t (j ++ seen (s.requests + 1) event effects) where
  numbers := by rw [registry_append, List.map_append, h.numbers, numbers_move hmove]
  entries key := carries_move hs hmove (h.entries key)
  flights := by
    intro key r hr
    by_cases hclear : event = .clear
    · subst hclear
      obtain ⟨rfl, rfl⟩ := hmove.of_clear
      refine (h.flights hr).extend fun σ hσ => ?_
      rw [List.mem_singleton.mp hσ]
      rfl
    · by_cases hkey : event.key? = some key
      · exact underWay_own (hs.standing key) (h.entries key) (fun q hq => h.flights hq)
          (hmove.change hs hkey) r hr
      · have hsame := (hmove.frame hs hclear hkey).2
        have hr' : s.flight? key = some r := hsame ▸ hr
        refine (h.flights hr').extend ?_
        rw [flight?_key hr']
        exact isWork_other hmove hkey

/-- After any events the journal accounts for what the scheduler keeps. -/
theorem recorded_after (settings : SchedulerSettings) (events : List Event) :
    Recorded (after settings {} events) (journal settings {} events) := by
  induction events using List.reverseRecOn with
  | nil => exact ⟨rfl, fun _ => .idle, fun h => nomatch h⟩
  | append_singleton events e ih =>
    have hs := sound_after settings events
    rw [after_concat, journal_concat]
    exact ih.move hs (step_move settings hs e)

end ProofLedger.Scheduler
