import ProofLedger.Proofs.Scheduler.Journal
import ProofLedger.Proofs.Scheduler.Totals

/-!
# What becomes of a request

A request waits in the entry of its key until a run of the key takes it or a clear drops it; a run
resolves the requests that it has taken when it ends, after their tasks. No request is lost or
resolved twice on the way, because each event moves requests and tasks from one place to the next
(`tallied_after`). Every resolution is the end of a run that took the request or a clear before any
run took it (`accounted_after`).
-/

namespace ProofLedger.Scheduler

variable {settings : SchedulerSettings}

-- ── What was resolved and run ─────────────────────────────────────────────────

namespace Sighting

/-- The requests that a run resolves at its end. -/
def covered : Sighting → List Nat
  | .finished _ numbers => numbers
  | _ => []

/-- The requests that a clear resolves. -/
def dropped : Sighting → List Nat
  | .cleared numbers => numbers
  | _ => []

/-- The request whose task is started. -/
def task? : Sighting → Option Nat
  | .taskStarted _ n => some n
  | _ => none

end Sighting

/-- The requests that runs resolved. -/
def coveredIn (j : List Sighting) : List Nat := j.flatMap Sighting.covered

/-- The requests that clears resolved. -/
def droppedIn (j : List Sighting) : List Nat := j.flatMap Sighting.dropped

/-- The requests whose tasks were started. -/
def tasksIn (j : List Sighting) : List Nat := j.filterMap Sighting.task?

/-- The requests whose tasks effects start. -/
def tasksBy (effects : List Effect) : List Nat :=
  effects.filterMap fun
    | .startTask _ _ n => some n
    | _ => none

theorem coveredIn_append (a b : List Sighting) :
    coveredIn (a ++ b) = coveredIn a ++ coveredIn b := List.flatMap_append

theorem droppedIn_append (a b : List Sighting) :
    droppedIn (a ++ b) = droppedIn a ++ droppedIn b := List.flatMap_append

theorem tasksIn_append (a b : List Sighting) :
    tasksIn (a ++ b) = tasksIn a ++ tasksIn b := List.filterMap_append

theorem tasksOf_append (a b : List (Nat × SyncRequest)) :
    tasksOf (a ++ b) = tasksOf a ++ tasksOf b := by
  rw [tasksOf, List.filter_append, List.map_append]
  rfl

/-- What ends a piece of work covers no request by itself. -/
theorem coveredIn_closing (r : Run) (outcome : RunOutcome) (σ : Sighting) :
    coveredIn [r.closing outcome, σ] = σ.covered := by
  unfold Run.closing
  cases r.stage <;> exact List.append_nil _

/-- What ends a piece of work drops no request. -/
theorem droppedIn_closing (r : Run) (outcome : RunOutcome) (σ : Sighting) :
    droppedIn [r.closing outcome, σ] = σ.dropped := by
  unfold Run.closing
  cases r.stage <;> exact List.append_nil _

/-- What ends a piece of work starts no task. -/
theorem tasksIn_closing (r : Run) (outcome : RunOutcome) (σ : Sighting) :
    tasksIn [r.closing outcome, σ] = σ.task?.toList := by
  have hnone : (r.closing outcome).task? = none := by
    unfold Run.closing
    cases r.stage <;> rfl
  rw [tasksIn, List.filterMap_cons_none hnone]
  cases h : σ.task? <;> simp [h]

-- ── Requests and tasks move ───────────────────────────────────────────────────

/-- The number of times that a state holds a request. -/
def held (n : Nat) (s : Scheduler) : Nat := total (·.waiters.count n) (·.waiters.count n) s

/-- The number of times that a state holds the task of a request. -/
def due (n : Nat) (s : Scheduler) : Nat := total (·.tasks.count n) (·.tasks.count n) s

/-- What the key of an event no longer holds of a request was resolved, and what it holds besides
    was registered. -/
theorem Change.waiters {s : Scheduler} {key : String} {event : Event} {e e' : Option Entry}
    {r r' : Option Run} {effects : List Effect}
    (h : Change settings s key event e r e' r' effects) (n : Nat) :
    (coveredIn (seen (s.requests + 1) event effects)).count n +
        share (·.waiters.count n) (·.waiters.count n) e' r' =
      share (·.waiters.count n) (·.waiters.count n) e r +
        ((registry (seen (s.requests + 1) event effects)).map (·.1)).count n := by
  cases h with
  | opened q epoch =>
    show 0 + ([s.requests + 1].count n + 0) = 0 + [s.requests + 1].count n
    omega
  | @rearmed q token e =>
    show 0 + ((e.waiters ++ [s.requests + 1]).count n + 0) =
      e.waiters.count n + 0 + [s.requests + 1].count n
    rw [List.count_append]
    omega
  | @queued q e p =>
    show 0 + ((e.waiters ++ [s.requests + 1]).count n + p.waiters.count n) =
      e.waiters.count n + p.waiters.count n + [s.requests + 1].count n
    rw [List.count_append]
    omega
  | @fired e =>
    show 0 + (0 + e.waiters.count n) = e.waiters.count n + 0 + 0
    omega
  | @nextTask e p m rest outcome hkey =>
    subst hkey
    rw [seen_nextTask, coveredIn_closing, registry_closing _ _ rfl]
    exact Nat.zero_add _
  | @ended e p outcome hkey htasks hnone hcovers =>
    rw [seen_ended hcovers, coveredIn_closing, registry_closing _ _ rfl]
    show p.waiters.count n + 0 = e.waiters.count n + p.waiters.count n + 0
    rw [hnone, List.count_nil]
    omega
  | @followed e p outcome token hkey htasks hsome hcovers =>
    subst hkey
    rw [seen_followed hcovers, coveredIn_closing, registry_closing _ _ rfl]
    show p.waiters.count n + (e.waiters.count n + 0) = e.waiters.count n + p.waiters.count n + 0
    omega
  | ignored hstale =>
    rw [seen_stale hstale]
    exact Nat.zero_add _

/-- What the key of an event no longer holds of a task was started, and what it holds besides was
    registered. -/
theorem Change.tasks {s : Scheduler} {key : String} {event : Event} {e e' : Option Entry}
    {r r' : Option Run} {effects : List Effect} (hstanding : Standing e r)
    (h : Change settings s key event e r e' r' effects) (n : Nat) :
    (tasksIn (seen (s.requests + 1) event effects)).count n +
        share (·.tasks.count n) (·.tasks.count n) e' r' =
      share (·.tasks.count n) (·.tasks.count n) e r +
        (tasksOf (registry (seen (s.requests + 1) event effects))).count n := by
  have hjoin : ∀ (e : Entry) (q : SyncRequest),
      (e.join (s.requests + 1) q).tasks = e.tasks ++ tasksOf [(s.requests + 1, q)] := by
    intro e q
    show (if q.hasTask then e.tasks ++ [s.requests + 1] else e.tasks) = _
    cases ht : q.hasTask <;> simp [tasksOf, ht]
  cases h with
  | opened q epoch =>
    show 0 + ((((Entry.fresh epoch q.reason).join (s.requests + 1) q).tasks).count n + 0) =
      0 + (tasksOf [(s.requests + 1, q)]).count n
    rw [hjoin]
    show 0 + ((tasksOf [(s.requests + 1, q)]).count n + 0) =
      0 + (tasksOf [(s.requests + 1, q)]).count n
    omega
  | @rearmed q token e =>
    show 0 + ((e.join (s.requests + 1) q).tasks.count n + 0) =
      e.tasks.count n + 0 + (tasksOf [(s.requests + 1, q)]).count n
    rw [hjoin, List.count_append]
    omega
  | @queued q e p =>
    show 0 + ((e.join (s.requests + 1) q).tasks.count n + p.tasks.count n) =
      e.tasks.count n + p.tasks.count n + (tasksOf [(s.requests + 1, q)]).count n
    rw [hjoin, List.count_append]
    omega
  | @fired e =>
    show 0 + (0 + e.tasks.count n) = e.tasks.count n + 0 + 0
    omega
  | @nextTask e p m rest outcome hkey htasks =>
    subst hkey
    rw [seen_nextTask, tasksIn_closing, registry_closing _ _ rfl]
    show [m].count n + (e.tasks.count n + rest.count n) = e.tasks.count n + p.tasks.count n + 0
    rw [htasks, show m :: rest = [m] ++ rest from rfl, List.count_append]
    omega
  | @ended e p outcome hkey htasks hnone hcovers =>
    rw [seen_ended hcovers, tasksIn_closing, registry_closing _ _ rfl]
    have hdone : e.tasks = [] := by
      cases hstanding with
      | running _ _ _ hdue => exact Decidable.byContradiction fun hne => hdue hne hnone
    show 0 + 0 = e.tasks.count n + p.tasks.count n + 0
    rw [hdone, htasks]
    rfl
  | @followed e p outcome token hkey htasks hsome hcovers =>
    subst hkey
    rw [seen_followed hcovers, tasksIn_closing, registry_closing _ _ rfl]
    show 0 + (e.tasks.count n + 0) = e.tasks.count n + p.tasks.count n + 0
    rw [htasks, List.count_nil]
    omega
  | ignored hstale =>
    rw [seen_stale hstale]
    exact Nat.zero_add _

/-- Of registered requests, those with a task are the ones whose task is to run. -/
theorem mem_tasksOf {registered : List (Nat × SyncRequest)}
    (hnodup : (registered.map (·.1)).Nodup) {x : Nat × SyncRequest} (hx : x ∈ registered) :
    x.1 ∈ tasksOf registered ↔ x.2.hasTask = true := by
  simp only [tasksOf, List.mem_map, List.mem_filter]
  constructor
  · rintro ⟨y, ⟨hy, ht⟩, he⟩
    rw [← List.inj_on_of_nodup_map hnodup hy hx he]
    exact ht
  · exact fun ht => ⟨x, ⟨hx, ht⟩, rfl⟩

/-- A request that waits has a task exactly if the registry says so. -/
theorem count_tasksOf {requests registered : List (Nat × SyncRequest)}
    (hsub : ∀ x ∈ requests, x ∈ registered) (hnodup : (registered.map (·.1)).Nodup) (n : Nat) :
    (tasksOf requests).count n =
      if n ∈ tasksOf registered then (requests.map (·.1)).count n else 0 := by
  induction requests with
  | nil => exact (ite_self 0).symm
  | cons x rest ih =>
    have hmem := mem_tasksOf hnodup (hsub x List.mem_cons_self)
    have hcons : tasksOf (x :: rest) = tasksOf [x] ++ tasksOf rest := tasksOf_append [x] rest
    rw [hcons, List.count_append, ih fun y hy => hsub y (List.mem_cons_of_mem _ hy),
      List.map_cons, List.count_cons]
    by_cases hn : x.1 = n
    · subst hn
      simp only [hmem]
      by_cases ht : x.2.hasTask = true <;> simp [tasksOf, ht, Nat.add_comm]
    · by_cases ht : x.2.hasTask = true <;> simp [tasksOf, ht, hn]

/-- A number belongs to one request. -/
theorem Recorded.registered_unique {s : Scheduler} {j : List Sighting} (hrec : Recorded s j)
    {n : Nat} {r q : SyncRequest} (hr : .registered n r ∈ j) (hq : .registered n q ∈ j) :
    r = q := by
  have hnodup : ((registry j).map (·.1)).Nodup := hrec.numbers ▸ List.nodup_range'
  have hsame := List.inj_on_of_nodup_map hnodup (mem_registry.mpr hr) (mem_registry.mpr hq) rfl
  exact congrArg Prod.snd hsame

/-- A request is registered once. -/
theorem Recorded.count_registered {s : Scheduler} {j : List Sighting} (hrec : Recorded s j)
    {n : Nat} {r : SyncRequest} (hr : .registered n r ∈ j) :
    ((registry j).map (·.1)).count n = 1 := by
  have hnodup : ((registry j).map (·.1)).Nodup := hrec.numbers ▸ List.nodup_range'
  exact List.count_eq_one_of_mem hnodup (List.mem_map.mpr ⟨_, mem_registry.mpr hr, rfl⟩)

/-- Whatever is registered was resolved or is held, and each task was started, is due or was
    dropped with its request. -/
structure Tallied (s : Scheduler) (j : List Sighting) : Prop where
  requests : ∀ n, (coveredIn j).count n + (droppedIn j).count n + held n s =
    ((registry j).map (·.1)).count n
  tasks : ∀ n, (tasksIn j).count n + due n s +
      (if n ∈ tasksOf (registry j) then (droppedIn j).count n else 0) =
    (tasksOf (registry j)).count n

section Moves

variable {s t : Scheduler} {event : Event} {effects : List Effect} {j : List Sighting}

/-- Only a clear drops requests. -/
theorem droppedIn_seen (hmove : Move settings s event t effects) (hclear : event ≠ .clear) :
    droppedIn (seen (s.requests + 1) event effects) = [] := by
  cases hmove with
  | opened | rearmed | queued | fired => rfl
  | nextTask => rw [seen_nextTask, droppedIn_closing]; rfl
  | ended outcome hr htasks hget hphase hnone hcovers =>
    rw [seen_ended hcovers, droppedIn_closing]; rfl
  | followed outcome hr htasks hget hphase hsome hcovers =>
    rw [seen_followed hcovers, droppedIn_closing]; rfl
  | cleared => exact absurd rfl hclear
  | ignored event hstale => rw [seen_stale hstale]; rfl

/-- A clear resolves the requests that entries hold. -/
theorem resolvedBy_clear (s : Scheduler) :
    resolvedBy (clear s).2 = s.entries.values.flatMap (·.waiters) := by
  have heach : ∀ (key : String) (e : Entry),
      resolvedBy (e.disarm key ++ e.waiters.map .resolve) = e.waiters := by
    intro key e
    rw [resolvedBy_append, resolvedBy_map_resolve]
    unfold Entry.disarm
    cases e.timer <;> rfl
  show (s.entries.entries.flatMap _).filterMap _ = (s.entries.entries.map (·.2)).flatMap _
  rw [List.filterMap_flatMap, List.flatMap_map]
  exact congrArg (s.entries.entries.flatMap ·) (funext fun x => heach x.1 x.2)

/-- A clear resolves a request as often as it waits. -/
theorem count_cleared (s : Scheduler) (n : Nat) :
    (resolvedBy (clear s).2).count n = (s.entries.values.map (·.waiters.count n)).sum := by
  rw [resolvedBy_clear, List.count_flatMap]
  rfl

/-- Of the requests of a key, a clear drops those that wait. -/
theorem Recorded.mem_cleared (hrec : Recorded s j) {key : String} {x : Nat × SyncRequest}
    (hx : x ∈ requestsOf key j) : x.1 ∈ resolvedBy (clear s).2 ↔ x ∈ waiting key j := by
  obtain ⟨n, r⟩ := x
  obtain ⟨hr, rfl⟩ := mem_requestsOf.mp hx
  simp only [resolvedBy_clear, Table.values, List.mem_flatMap, List.mem_map]
  constructor
  · rintro ⟨e, ⟨⟨key, _⟩, hmem, rfl⟩, hn⟩
    have hcarries := hrec.entries key
    rw [Table.mem_entries.mp hmem] at hcarries
    rw [hcarries.waiters] at hn
    obtain ⟨⟨_, q⟩, hq, rfl⟩ := List.mem_map.mp hn
    obtain ⟨hreg, rfl⟩ := registered_of_waiting hq
    rw [hrec.registered_unique hr hreg]
    exact hq
  · intro hw
    have hcarries := hrec.entries r.key
    cases hget : s.entries.get? r.key with
    | none =>
      rw [hget] at hcarries
      generalize waiting r.key j = requests at hcarries hw
      cases hcarries
      cases hw
    | some e =>
      rw [hget] at hcarries
      refine ⟨e, ⟨⟨r.key, e⟩, Table.mem_entries.mpr hget, rfl⟩, ?_⟩
      rw [hcarries.waiters]
      exact List.mem_map.mpr ⟨_, hw, rfl⟩

/-- The tasks that entries hold are those of the requests that they hold. -/
theorem sum_tasks (hrec : Recorded s j) (n : Nat) :
    (s.entries.values.map (·.tasks.count n)).sum =
      if n ∈ tasksOf (registry j) then (s.entries.values.map (·.waiters.count n)).sum else 0 := by
  have hnodup : ((registry j).map (·.1)).Nodup := hrec.numbers ▸ List.nodup_range'
  have heach : ∀ e ∈ s.entries.values,
      e.tasks.count n = if n ∈ tasksOf (registry j) then e.waiters.count n else 0 := by
    intro e he
    obtain ⟨⟨key, _⟩, hmem, rfl⟩ := List.mem_map.mp he
    have hcarries := hrec.entries key
    rw [Table.mem_entries.mp hmem] at hcarries
    cases hcarries with
    | stored hwaiters htasks =>
      rw [hwaiters, htasks]
      exact count_tasksOf (fun x hx => mem_registry.mpr (registered_of_waiting hx).1) hnodup n
  rw [List.map_congr_left heach]
  split
  · rfl
  · exact List.sum_eq_zero_iff_forall_eq_nat.mpr fun m hm => (List.eq_of_mem_map_const hm)

/-- Only registered requests are dropped. -/
theorem Tallied.registered_of_dropped (htally : Tallied s j) (hrec : Recorded s j) {n : Nat}
    (hn : n ∈ droppedIn j) : n ∈ List.range' 1 s.requests := by
  rw [← hrec.numbers, ← List.count_pos_iff, ← htally.requests n]
  have hpos := List.count_pos_iff.mpr hn
  omega

/-- What is registered by an event says nothing of requests that were resolved before. -/
theorem dropped_stable (hrec : Recorded s j) (htally : Tallied s j)
    (hmove : Move settings s event t effects) (n : Nat) :
    (if n ∈ tasksOf (registry (j ++ seen (s.requests + 1) event effects))
      then (droppedIn j).count n else 0) =
    if n ∈ tasksOf (registry j) then (droppedIn j).count n else 0 := by
  by_cases hn : n ∈ droppedIn j
  · have hreg := htally.registered_of_dropped hrec hn
    have hnew : n ∉ tasksOf (registry (seen (s.requests + 1) event effects)) := by
      intro h
      have hmem : n ∈ (registry (seen (s.requests + 1) event effects)).map (·.1) :=
        (List.filter_sublist.map _).subset h
      have hnodup : (List.range' 1 t.requests).Nodup := List.nodup_range'
      rw [numbers_move hmove] at hnodup
      exact (List.disjoint_of_nodup_append hnodup) hreg hmem
    rw [registry_append, tasksOf_append]
    simp only [List.mem_append, hnew, or_false]
  · rw [List.count_eq_zero.mpr hn, ite_self, ite_self]

/-- Every event keeps the tally. -/
theorem Tallied.move (htally : Tallied s j) (hs : s.Sound) (hrec : Recorded s j)
    (hmove : Move settings s event t effects) :
    Tallied t (j ++ seen (s.requests + 1) event effects) := by
  have hstable := dropped_stable hrec htally hmove
  by_cases hclear : event = .clear
  · subst hclear
    obtain ⟨rfl, rfl⟩ := hmove.of_clear
    have hreg : registry (j ++ seen (s.requests + 1) .clear (clear s).2) = registry j := by
      rw [registry_append]
      exact List.append_nil _
    have hdropped : droppedIn (j ++ seen (s.requests + 1) .clear (clear s).2) =
        droppedIn j ++ resolvedBy (clear s).2 := by
      rw [droppedIn_append]
      exact congrArg (droppedIn j ++ ·) (List.append_nil _)
    constructor
    · intro n
      have hheld : held n s = _ + held n (clear s).1 := total_clear s fun _ => rfl
      have hbefore := htally.requests n
      rw [hreg, hdropped, coveredIn_append, List.count_append, List.count_append, count_cleared]
      show _ + 0 + _ + _ = _
      omega
    · intro n
      have hdue : due n s = _ + due n (clear s).1 := total_clear s fun _ => rfl
      have hbefore := htally.tasks n
      rw [sum_tasks hrec n] at hdue
      rw [hreg, hdropped, tasksIn_append, List.count_append, List.count_append, count_cleared]
      show _ + 0 + _ + _ = _
      split at hbefore
      · next htask =>
        rw [if_pos htask] at hdue ⊢
        omega
      · next htask =>
        rw [if_neg htask] at hdue ⊢
        omega
  · obtain ⟨key, hkey⟩ := Event.exists_key hclear
    have hchange := hmove.change hs hkey
    have hdropped : droppedIn (j ++ seen (s.requests + 1) event effects) = droppedIn j := by
      rw [droppedIn_append, droppedIn_seen hmove hclear, List.append_nil]
    constructor
    · intro n
      have hbefore := htally.requests n
      have hwaiters := hchange.waiters n
      rw [held, hs.total_eq key] at hbefore
      rw [held, hmove.total_eq hs hkey, hdropped, coveredIn_append, registry_append,
        List.map_append, List.count_append, List.count_append]
      omega
    · intro n
      have hbefore := htally.tasks n
      have htasks := hchange.tasks (hs.standing key) n
      have hstay := hstable n
      rw [due, hs.total_eq key] at hbefore
      rw [due, hmove.total_eq hs hkey, hdropped, hstay, tasksIn_append, registry_append,
        tasksOf_append, List.count_append, List.count_append]
      omega

end Moves

/-- What every event keeps holds after all events. -/
theorem tallied_after (settings : SchedulerSettings) (events : List Event) :
    Tallied (after settings {} events) (journal settings {} events) := by
  induction events using List.reverseRecOn with
  | nil => exact ⟨fun _ => rfl, fun _ => rfl⟩
  | append_singleton events e ih =>
    have hs := sound_after settings events
    rw [after_concat, journal_concat]
    exact ih.move hs (recorded_after settings events) (step_move settings hs e)

-- ── Where a request is held ───────────────────────────────────────────────────

/-- The requests that a key holds: those that wait in its entry and those that its run in flight
    has taken. -/
def heldBy (s : Scheduler) (key : String) : List Nat :=
  ((s.entries.get? key).map (·.waiters)).getD [] ++ ((s.flight? key).map (·.waiters)).getD []

section Held

variable {s : Scheduler} {j : List Sighting}

/-- A key holds the requests of its entry and those of its run. -/
theorem mem_heldBy {key : String} {n : Nat} :
    n ∈ heldBy s key ↔ (∃ e, s.entries.get? key = some e ∧ n ∈ e.waiters) ∨
      ∃ r, s.flight? key = some r ∧ n ∈ r.waiters := by
  rw [heldBy, List.mem_append]
  cases s.entries.get? key <;> cases s.flight? key <;> simp

/-- A key holds a request as often as its entry and its run have it. -/
theorem count_heldBy (s : Scheduler) (key : String) (n : Nat) :
    (heldBy s key).count n =
      share (·.waiters.count n) (·.waiters.count n) (s.entries.get? key) (s.flight? key) := by
  rw [heldBy, List.count_append, share]
  cases s.entries.get? key <;> cases s.flight? key <;> rfl

/-- A key holds only requests that were registered for it. -/
theorem Recorded.registered_of_held (hrec : Recorded s j) {key : String} {n : Nat}
    (h : n ∈ heldBy s key) : ∃ r, .registered n r ∈ j ∧ r.key = key := by
  rcases mem_heldBy.mp h with ⟨e, hget, hn⟩ | ⟨r, hr, hn⟩
  · have hcarries := hrec.entries key
    rw [hget] at hcarries
    rw [hcarries.waiters] at hn
    obtain ⟨⟨_, q⟩, hq, rfl⟩ := List.mem_map.mp hn
    exact ⟨q, registered_of_waiting hq⟩
  · obtain ⟨opening, closing, rfl, _, hwaiters, _⟩ := hrec.flights hr
    rw [hwaiters] at hn
    obtain ⟨⟨_, q⟩, hq, rfl⟩ := List.mem_map.mp hn
    obtain ⟨hmem, hkey⟩ := registered_of_waiting hq
    exact ⟨q, List.mem_append_left _ hmem, hkey.trans (flight?_key hr)⟩

/-- Only the key of a request holds it. -/
theorem Recorded.held_eq (hs : s.Sound) (hrec : Recorded s j) {n : Nat} {r : SyncRequest}
    (hr : .registered n r ∈ j) : held n s = (heldBy s r.key).count n := by
  have hother : ∀ key, key ≠ r.key → n ∉ heldBy s key := by
    intro key hkey hn
    obtain ⟨q, hq, hqkey⟩ := hrec.registered_of_held hn
    rw [← hrec.registered_unique hr hq] at hqkey
    exact hkey hqkey.symm
  rw [held, hs.total_eq r.key, ← count_heldBy, elsewhere_eq_zero, Nat.add_zero]
  · intro key e hkey hget
    exact List.count_eq_zero.mpr fun hn => hother key hkey (mem_heldBy.mpr (Or.inl ⟨e, hget, hn⟩))
  · intro q hq hkey
    exact List.count_eq_zero.mpr fun hn =>
      hother q.key hkey (mem_heldBy.mpr (Or.inr ⟨q, hs.flight?_of_mem hq, hn⟩))

/-- A task that is due is one of a request that is held. -/
theorem Recorded.due_le (hs : s.Sound) (hrec : Recorded s j) (n : Nat) : due n s ≤ held n s := by
  have htasks : ∀ requests, (tasksOf requests).Sublist (requests.map (·.1)) := fun requests =>
    List.filter_sublist.map _
  refine total_le (fun key e hget => ?_) fun r hr => ?_
  · have hcarries := hrec.entries key
    rw [hget] at hcarries
    cases hcarries with
    | stored hwaiters hdue =>
      rw [hwaiters, hdue]
      exact (htasks _).count_le n
  · obtain ⟨opening, closing, _, _, hwaiters, hprogress⟩ := hrec.flights (hs.flight?_of_mem hr)
    have hrest : r.tasks.Sublist (tasksOf (waiting r.key opening)) := hprogress.tasks_sublist
    rw [hwaiters]
    exact (hrest.trans (htasks _)).count_le n

end Held

-- ── Resolutions ───────────────────────────────────────────────────────────────

/-- What the scheduler asks for in the course of events. -/
def asked (settings : SchedulerSettings) (events : List Event) : List Effect :=
  (told settings {} events).flatMap (·.2)

/-- What is asked for by one more event. -/
theorem asked_concat (events : List Event) (e : Event) :
    asked settings (events ++ [e]) =
      asked settings events ++ ((after settings {} events).step settings e).2 := by
  rw [asked, told_concat, List.flatMap_append, asked]
  exact congrArg (_ ++ ·) (List.append_nil _)

section Moves

variable {s t : Scheduler} {event : Event} {effects : List Effect}

/-- Requests are resolved as they are seen to be covered or dropped. -/
theorem resolvedBy_seen (hmove : Move settings s event t effects) :
    resolvedBy effects =
      coveredIn (seen (s.requests + 1) event effects) ++
        droppedIn (seen (s.requests + 1) event effects) := by
  cases hmove with
  | opened | rearmed | queued | fired => rfl
  | nextTask => rw [seen_nextTask, coveredIn_closing, droppedIn_closing]; rfl
  | ended outcome hr htasks hget hphase hnone hcovers =>
    rw [seen_ended hcovers, coveredIn_closing, droppedIn_closing, resolvedBy_map_resolve]
    exact (List.append_nil _).symm
  | @followed r e outcome hr htasks hget hphase hsome hcovers =>
    rw [seen_followed hcovers, coveredIn_closing, droppedIn_closing]
    exact (resolvedBy_map_resolve r.waiters).trans (List.append_nil _).symm
  | cleared => exact (List.append_nil _).symm
  | ignored event hstale => rw [seen_stale hstale]; rfl

/-- Tasks are started as they are seen to start. -/
theorem tasksBy_seen (hmove : Move settings s event t effects) :
    tasksBy effects = tasksIn (seen (s.requests + 1) event effects) := by
  have hresolve : ∀ numbers : List Nat, tasksBy (numbers.map .resolve) = [] := fun numbers => by
    simp [tasksBy]
  cases hmove with
  | opened | rearmed | queued | fired => rfl
  | nextTask => rw [seen_nextTask, tasksIn_closing]; rfl
  | ended outcome hr htasks hget hphase hnone hcovers =>
    rw [seen_ended hcovers, tasksIn_closing]
    exact hresolve _
  | followed outcome hr htasks hget hphase hsome hcovers =>
    rw [seen_followed hcovers, tasksIn_closing]
    exact hresolve _
  | cleared =>
    have hdisarm : ∀ (key : String) (e : Entry), tasksBy (e.disarm key) = [] := by
      intro key e
      unfold Entry.disarm
      cases e.timer <;> rfl
    refine List.filterMap_eq_nil_iff.mpr fun effect heffect => ?_
    obtain ⟨⟨key, e⟩, _, hin⟩ := List.mem_flatMap.mp heffect
    rcases List.mem_append.mp hin with hd | hr
    · exact List.filterMap_eq_nil_iff.mp (hdisarm key e) effect hd
    · exact List.filterMap_eq_nil_iff.mp (hresolve e.waiters) effect hr
  | ignored event hstale => rw [seen_stale hstale]; rfl

/-- A request is resolved by a clear that finds it in an entry or at the end of the run that has
    taken it. -/
theorem Move.resolves (hmove : Move settings s event t effects) {n : Nat}
    (h : .resolve n ∈ effects) :
    (event = .clear ∧ ∃ key e, s.entries.get? key = some e ∧ n ∈ e.waiters) ∨
      ∃ r outcome, s.flight? r.key = some r ∧ r.tasks = [] ∧ n ∈ r.waiters ∧
        seen (s.requests + 1) event effects =
          [r.closing outcome, .finished r.key r.waiters] := by
  cases hmove with
  | opened | rearmed | queued | fired | nextTask => simp at h
  | @ended r e outcome hr htasks hget hphase hnone hcovers =>
    exact Or.inr ⟨r, outcome, hr, htasks, by simpa using h, seen_ended hcovers _ _⟩
  | @followed r e outcome hr htasks hget hphase hsome hcovers =>
    exact Or.inr ⟨r, outcome, hr, htasks, by simpa using h, seen_followed hcovers _ _ _ _⟩
  | cleared =>
    obtain ⟨⟨key, e⟩, hmem, hin⟩ := List.mem_flatMap.mp h
    rcases List.mem_append.mp hin with hd | hr
    · simp [Entry.disarm] at hd
    · exact Or.inl ⟨rfl, key, e, Table.mem_entries.mp hmem, by simpa using hr⟩
  | ignored event hstale => cases h

end Moves

/-- In all, requests are resolved as often as they are covered or dropped. -/
theorem count_resolved (settings : SchedulerSettings) (events : List Event) (n : Nat) :
    (resolvedBy (asked settings events)).count n =
      (coveredIn (journal settings {} events)).count n +
        (droppedIn (journal settings {} events)).count n := by
  induction events using List.reverseRecOn with
  | nil => rfl
  | append_singleton events e ih =>
    have hmove := step_move settings (sound_after settings events) e
    rw [asked_concat, journal_concat, resolvedBy_append, coveredIn_append, droppedIn_append,
      resolvedBy_seen hmove]
    simp only [List.count_append, ih]
    omega

/-- In all, tasks are started in the order in which they are seen to start. -/
theorem tasksBy_asked (settings : SchedulerSettings) (events : List Event) :
    tasksBy (asked settings events) = tasksIn (journal settings {} events) := by
  induction events using List.reverseRecOn with
  | nil => rfl
  | append_singleton events e ih =>
    have hmove := step_move settings (sound_after settings events) e
    rw [asked_concat, journal_concat, tasksIn_append, ← tasksBy_seen hmove, ← ih]
    exact List.filterMap_append

/-- A request is served by what is seen now: the end of a run of its key that had taken it. The run
    started after the request was registered, and all its tasks were run, in the order in which
    their requests were registered. -/
def Served (j now : List Sighting) (n : Nat) (r : SyncRequest) : Prop :=
  ∃ opening reason during outcome, j = opening ++ .started r.key reason :: during ∧
    (n, r) ∈ waiting r.key opening ∧
    (tasksOf (waiting r.key opening)).Pairwise (· < ·) ∧
    workOf r.key during ++ now =
      round r.key outcome (tasksOf (waiting r.key opening)) ((waiting r.key opening).map (·.1))

/-- What becomes of requests in the course of events. -/
structure Accounted (settings : SchedulerSettings) (events : List Event) : Prop where
  /-- no request is resolved twice -/
  once : ∀ n, (resolvedBy (asked settings events)).count n ≤ 1
  /-- a request that is not resolved is held once and only by its key, in the entry or by the run
      in flight -/
  held : ∀ n r, .registered n r ∈ journal settings {} events → ∀ key,
    (heldBy (after settings {} events) key).count n =
      if key = r.key ∧ n ∉ resolvedBy (asked settings events) then 1 else 0
  /-- a request that is resolved was served by a run, and its task was run once, or it was dropped
      by a clear while it waited, and its task is never run -/
  resolution : ∀ before e later n, events = before ++ e :: later →
    .resolve n ∈ ((after settings {} before).step settings e).2 →
    ∃ r, .registered n r ∈ journal settings {} before ∧
      (Served (journal settings {} before) (journal settings (after settings {} before) [e]) n r ∧
          (tasksBy (asked settings events)).count n = (if r.hasTask then 1 else 0) ∨
        e = .clear ∧ (n, r) ∈ waiting r.key (journal settings {} before) ∧
          (tasksBy (asked settings events)).count n = 0)
  /-- when no timer is live and no run is in flight, every request is resolved -/
  quiescent : liveTimers (told settings {} events) = [] → (after settings {} events).runs = [] →
    ∀ n r, .registered n r ∈ journal settings {} events → n ∈ resolvedBy (asked settings events)

/-- The journal of earlier events stays. -/
theorem journal_earlier (settings : SchedulerSettings) (before : List Event) (e : Event)
    (later : List Event) :
    ∃ rest, journal settings {} (before ++ e :: later) =
      journal settings {} before ++ journal settings (after settings {} before) [e] ++ rest := by
  refine ⟨journal settings (after settings (after settings {} before) [e]) later, ?_⟩
  rw [journal_append, show e :: later = [e] ++ later from rfl, journal_append, List.append_assoc]

theorem journal_singleton (s : Scheduler) (e : Event) :
    journal settings s [e] = seen (s.requests + 1) e (s.step settings e).2 := List.append_nil _

/-- Tasks are taken in the order in which their requests were registered. -/
theorem Recorded.tasks_ordered {s : Scheduler} {opening rest : List Sighting}
    (hrec : Recorded s (opening ++ rest)) (key : String) :
    (tasksOf (waiting key opening)).Pairwise (· < ·) := by
  have hordered : ((registry (opening ++ rest)).map (·.1)).Pairwise (· < ·) := by
    rw [hrec.numbers]
    exact List.pairwise_lt_range'
  have hwaiting : (waiting key opening).Sublist (registry (opening ++ rest)) := by
    refine (waiting_sublist key opening).trans ?_
    rw [requestsOf_eq, registry_append]
    exact List.filter_sublist.trans (List.sublist_append_left _ _)
  exact hordered.sublist ((List.filter_sublist.trans hwaiting).map _)

/-- How a request comes to be resolved by an event. -/
theorem resolved_by {s t : Scheduler} {event : Event} {effects : List Effect} {j : List Sighting}
    (hrec : Recorded s j) (hmove : Move settings s event t effects) {n : Nat}
    (h : .resolve n ∈ effects) :
    ∃ r, .registered n r ∈ j ∧
      (Served j (seen (s.requests + 1) event effects) n r ∧
          n ∈ coveredIn (seen (s.requests + 1) event effects) ∨
        event = .clear ∧ (n, r) ∈ waiting r.key j ∧
          n ∈ droppedIn (seen (s.requests + 1) event effects)) := by
  rcases hmove.resolves h with ⟨rfl, key, e, hget, hn⟩ | ⟨r, outcome, hr, htasks, hn, hseen⟩
  · have hcarries := hrec.entries key
    rw [hget] at hcarries
    rw [hcarries.waiters] at hn
    obtain ⟨⟨_, q⟩, hq, rfl⟩ := List.mem_map.mp hn
    obtain ⟨hmem, rfl⟩ := registered_of_waiting hq
    refine ⟨q, hmem, Or.inr ⟨rfl, hq, ?_⟩⟩
    exact List.mem_append_left _ (mem_resolvedBy.mpr h)
  · obtain ⟨opening, during, rfl, _, hwaiters, hprogress⟩ := hrec.flights hr
    obtain ⟨o, hround⟩ := hprogress.finish htasks outcome r.waiters
    have hcovered : n ∈ coveredIn (seen (s.requests + 1) event effects) := by
      rw [hseen, coveredIn_closing]
      exact hn
    rw [hwaiters] at hn
    obtain ⟨⟨_, q⟩, hq, rfl⟩ := List.mem_map.mp hn
    obtain ⟨hmem, hkey⟩ := registered_of_waiting hq
    refine ⟨q, List.mem_append_left _ hmem, Or.inl ⟨?_, hcovered⟩⟩
    rw [Served, hkey]
    refine ⟨opening, r.reason, during, o, rfl, hq, hrec.tasks_ordered r.key, ?_⟩
    rw [hseen, hround, hwaiters]

/-- The task of a request that a run has resolved was started once, that of a dropped one never. -/
theorem Tallied.task_count {s : Scheduler} {j : List Sighting} (htally : Tallied s j)
    (hs : s.Sound) (hrec : Recorded s j) {n : Nat} {r : SyncRequest} (hr : .registered n r ∈ j) :
    (n ∈ coveredIn j → (tasksIn j).count n = if r.hasTask then 1 else 0) ∧
      (n ∈ droppedIn j → (tasksIn j).count n = 0) := by
  have hnodup : ((registry j).map (·.1)).Nodup := hrec.numbers ▸ List.nodup_range'
  have hrequests := htally.requests n
  have htasks := htally.tasks n
  have hdue := hrec.due_le hs n
  have hmem : n ∈ tasksOf (registry j) ↔ r.hasTask = true :=
    mem_tasksOf hnodup (mem_registry.mpr hr)
  rw [count_tasksOf (fun _ h => h) hnodup n] at htasks
  rw [hrec.count_registered hr] at hrequests htasks
  simp only [hmem] at htasks
  by_cases ht : r.hasTask = true
  · rw [if_pos ht, if_pos ht] at htasks
    rw [if_pos ht]
    refine ⟨fun hin => ?_, fun hin => ?_⟩
    · have hpos := List.count_pos_iff.mpr hin
      omega
    · have hpos := List.count_pos_iff.mpr hin
      omega
  · rw [if_neg ht, if_neg ht] at htasks
    rw [if_neg ht]
    refine ⟨fun _ => ?_, fun _ => ?_⟩ <;> omega

/-- Whatever the scheduler is told, and in whatever order, every request is accounted for. -/
theorem accounted_after (settings : SchedulerSettings) (events : List Event) :
    Accounted settings events := by
  have hs := sound_after settings events
  have hrec := recorded_after settings events
  have htally := tallied_after settings events
  have hresolved := count_resolved settings events
  constructor
  case once =>
    intro n
    have hrequests := htally.requests n
    have hnodup : ((registry (journal settings {} events)).map (·.1)).Nodup :=
      hrec.numbers ▸ List.nodup_range'
    have hone := List.nodup_iff_count_le_one.mp hnodup n
    rw [hresolved]
    omega
  case held =>
    intro n r hr key
    have hrequests := htally.requests n
    rw [hrec.count_registered hr, hrec.held_eq hs hr, ← hresolved] at hrequests
    by_cases hkey : key = r.key
    · subst hkey
      by_cases hn : n ∈ resolvedBy (asked settings events)
      · have hpos := List.count_pos_iff.mpr hn
        rw [if_neg fun h => h.2 hn]
        omega
      · rw [List.count_eq_zero.mpr hn] at hrequests
        rw [if_pos ⟨rfl, hn⟩]
        omega
    · rw [if_neg fun h => hkey h.1]
      refine List.count_eq_zero.mpr fun hn => hkey ?_
      obtain ⟨q, hq, hqkey⟩ := hrec.registered_of_held hn
      rw [hrec.registered_unique hr hq]
      exact hqkey.symm
  case resolution =>
    intro before e later n hevents hn
    have hs' := sound_after settings before
    have hmove := step_move settings hs' e
    obtain ⟨r, hr, hhow⟩ := resolved_by (recorded_after settings before) hmove hn
    obtain ⟨rest, hjournal⟩ := journal_earlier settings before e later
    rw [← hevents, journal_singleton] at hjournal
    have hr' : .registered n r ∈ journal settings {} events := by
      rw [hjournal]
      exact List.mem_append_left _ (List.mem_append_left _ hr)
    obtain ⟨hserved, hdropped⟩ := htally.task_count hs hrec hr'
    rw [tasksBy_asked, journal_singleton]
    refine ⟨r, hr, ?_⟩
    rcases hhow with ⟨hhow, hin⟩ | ⟨hclear, hhow, hin⟩
    · refine Or.inl ⟨hhow, hserved ?_⟩
      rw [hjournal, coveredIn_append, coveredIn_append]
      exact List.mem_append_left _ (List.mem_append_right _ hin)
    · refine Or.inr ⟨hclear, hhow, hdropped ?_⟩
      rw [hjournal, droppedIn_append, droppedIn_append]
      exact List.mem_append_left _ (List.mem_append_right _ hin)
  case quiescent =>
    intro htimers hruns n r hr
    have hidle : (after settings {} events).entries.get? r.key = none := by
      rw [Option.eq_none_iff_forall_ne_some]
      intro e hget
      rcases hs.phase_of_get? hget with hdeb | hrun
      · have hlive := timersOf_liveTimers settings events r.key
        rw [htimers, hget, promised, Option.bind_some, (hs.of_debouncing hget hdeb).2.1] at hlive
        cases hlive
      · obtain ⟨q, hq⟩ := hs.of_running hget hrun
        have hmem := mem_runs_of_flight? hq
        rw [hruns] at hmem
        cases hmem
    have hfree : (after settings {} events).flight? r.key = none := by
      rw [flight?, hruns]
      rfl
    have hrequests := htally.requests n
    rw [hrec.count_registered hr, hrec.held_eq hs hr, ← hresolved, heldBy, hidle, hfree]
      at hrequests
    exact List.count_pos_iff.mp (Nat.lt_of_lt_of_eq Nat.one_pos hrequests.symm)

end ProofLedger.Scheduler
