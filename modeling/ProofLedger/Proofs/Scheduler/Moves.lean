import Mathlib.Data.List.Nodup
import Mathlib.Tactic.Tauto
import ProofLedger.Scheduler

/-!
# The moves of the scheduler

Between two events a key is idle, debouncing or running, and it has a run in flight exactly if it
is running (`Sound`). In such a state an event does one of nine things; `Move` lists them, each with
the state that it leads to and the effects that it asks for. What is proved of the scheduler later
is proved move by move, so that no other proof opens `step`.
-/

namespace ProofLedger.Scheduler

-- ── Sound states ──────────────────────────────────────────────────────────────

/-- The run of a key that is in flight. -/
def flight? (s : Scheduler) (key : String) : Option Run := s.runs.find? fun r => r.key == key

/-- How a key stands between two events: its entry and its run in flight. -/
inductive Standing : Option Entry → Option Run → Prop where
  | idle : Standing none none
  | debouncing {e : Entry} (hphase : e.phase = .debouncing) (htimer : e.timer = some e.token)
    (hwaiters : e.waiters ≠ []) : Standing (some e) none
  | running {e : Entry} {r : Run} (hphase : e.phase = .running) (htimer : e.timer = none)
    (hqueued : e.queued = true ↔ e.waiters ≠ []) (htasks : e.tasks ≠ [] → e.waiters ≠ [])
    (hepoch : e.epoch = r.epoch) (hcovers : r.waiters ≠ []) : Standing (some e) (some r)

/-- What the scheduler is like between two events. -/
structure Sound (s : Scheduler) : Prop where
  distinct : (s.runs.map (·.key)).Nodup
  standing : ∀ key, Standing (s.entries.get? key) (s.flight? key)

namespace Sound

variable {s : Scheduler} {key : String} {e : Entry} {r : Run}

/-- A key with an entry is debouncing or running. -/
theorem phase_of_get? (hs : s.Sound) (hget : s.entries.get? key = some e) :
    e.phase = .debouncing ∨ e.phase = .running := by
  have h := hs.standing key
  rw [hget] at h
  generalize s.flight? key = f at h
  cases h with
  | debouncing hphase => exact Or.inl hphase
  | running hphase => exact Or.inr hphase

/-- A debouncing key has no run, but a timer and requests. -/
theorem of_debouncing (hs : s.Sound) (hget : s.entries.get? key = some e)
    (hphase : e.phase = .debouncing) :
    s.flight? key = none ∧ e.timer = some e.token ∧ e.waiters ≠ [] := by
  have h := hs.standing key
  rw [hget] at h
  generalize s.flight? key = f at h
  cases h with
  | debouncing _ htimer hwaiters => exact ⟨rfl, htimer, hwaiters⟩
  | running hrun => rw [hphase] at hrun; cases hrun

/-- A running key has a run in flight. -/
theorem of_running (hs : s.Sound) (hget : s.entries.get? key = some e)
    (hphase : e.phase = .running) : ∃ r, s.flight? key = some r := by
  have h := hs.standing key
  rw [hget] at h
  generalize s.flight? key = f at h
  cases h with
  | debouncing hdeb => rw [hphase] at hdeb; cases hdeb
  | @running _ r => exact ⟨r, rfl⟩

/-- A key with a run in flight is running, without a timer. -/
theorem of_flight (hs : s.Sound) (hr : s.flight? key = some r) :
    ∃ e, s.entries.get? key = some e ∧ e.phase = .running ∧ e.timer = none ∧
      (e.queued = true ↔ e.waiters ≠ []) ∧ (e.tasks ≠ [] → e.waiters ≠ []) ∧
      e.epoch = r.epoch ∧ r.waiters ≠ [] := by
  have h := hs.standing key
  rw [hr] at h
  generalize s.entries.get? key = g at h
  cases h with
  | @running e _ hphase htimer hqueued htasks hepoch hcovers =>
    exact ⟨e, rfl, hphase, htimer, hqueued, htasks, hepoch, hcovers⟩

end Sound

/-- The event that a run in flight waits for. -/
def Run.awaited (r : Run) (outcome : RunOutcome) : Event :=
  match r.stage with
  | .runner => .runEnded r.key r.epoch outcome
  | .task n => .taskEnded r.key r.epoch n outcome

/-- Whether an event is about something that is still current. -/
def Heeds (s : Scheduler) : Event → Prop
  | .timer key token =>
    ∃ e, s.entries.get? key = some e ∧ e.phase = .debouncing ∧ e.token = token
  | .runEnded key epoch outcome =>
    ∃ r ∈ s.runs, r.awaited outcome = .runEnded key epoch outcome
  | .taskEnded key epoch n outcome =>
    ∃ r ∈ s.runs, r.awaited outcome = .taskEnded key epoch n outcome
  | _ => True

/-- An entry with its timer armed under a token. -/
def Entry.armed (e : Entry) (token : Nat) : Entry := { e with timer := some token, token }

/-- The runs in flight when one of them has gone on to its next task. -/
def advanced (runs : List Run) (r : Run) (n : Nat) (rest : List Nat) : List Run :=
  runs.map fun q => if q.is r.key r.epoch then { r with stage := .task n, tasks := rest } else q

/-- The runs in flight when one of them has ended. -/
def without (runs : List Run) (r : Run) : List Run := runs.filter fun q => !q.is r.key r.epoch

/-- What an event does: the state after it, and the effects that it asks for. -/
inductive Move (settings : SchedulerSettings) (s : Scheduler) :
    Event → Scheduler → List Effect → Prop where
  /-- an idle key is requested -/
  | opened (r : SyncRequest) (hidle : s.entries.get? r.key = none) :
    Move settings s (.schedule r)
      { s with
        entries := s.entries.insert r.key
          (((Entry.fresh (s.lastId + 1) r.reason).join (s.requests + 1) r).armed (s.lastId + 2))
        lastId := s.lastId + 2
        requests := s.requests + 1 }
      [.arm r.key (s.lastId + 2) (settings.delayOf r.reason r.overrideMs)]
  /-- a key is requested again while its timer is armed -/
  | rearmed (r : SyncRequest) {e : Entry} (hget : s.entries.get? r.key = some e)
    (hphase : e.phase = .debouncing) :
    Move settings s (.schedule r)
      { s with
        entries := s.entries.insert r.key ((e.join (s.requests + 1) r).armed (s.lastId + 1))
        lastId := s.lastId + 1
        requests := s.requests + 1 }
      [.disarm r.key e.token,
        .arm r.key (s.lastId + 1) (settings.delayOf r.reason r.overrideMs)]
  /-- a key is requested while its run is in flight -/
  | queued (r : SyncRequest) {e : Entry} (hget : s.entries.get? r.key = some e)
    (hphase : e.phase = .running) :
    Move settings s (.schedule r)
      { s with
        entries := s.entries.insert r.key (e.join (s.requests + 1) r)
        requests := s.requests + 1 }
      []
  /-- the live timer of a key fires -/
  | fired (key : String) {e : Entry} (hget : s.entries.get? key = some e)
    (hphase : e.phase = .debouncing) :
    Move settings s (.timer key e.token)
      { s with entries := s.entries.insert key e.fired, runs := s.runs ++ [e.run key] }
      [.startRun key e.epoch e.reason]
  /-- a run goes on to its next task -/
  | nextTask {r : Run} (outcome : RunOutcome) {n : Nat} {rest : List Nat}
    (hr : s.flight? r.key = some r) (htasks : r.tasks = n :: rest) :
    Move settings s (r.awaited outcome)
      { s with runs := advanced s.runs r n rest }
      [.startTask r.key r.epoch n]
  /-- a run ends and its key becomes idle -/
  | ended {r : Run} {e : Entry} (outcome : RunOutcome) (hr : s.flight? r.key = some r)
    (htasks : r.tasks = []) (hget : s.entries.get? r.key = some e)
    (hphase : e.phase = .running) (hnone : e.waiters = []) (hcovers : r.waiters ≠ []) :
    Move settings s (r.awaited outcome)
      { s with runs := without s.runs r, entries := s.entries.erase r.key }
      (r.waiters.map .resolve)
  /-- a run ends and requests wait for another one -/
  | followed {r : Run} {e : Entry} (outcome : RunOutcome) (hr : s.flight? r.key = some r)
    (htasks : r.tasks = []) (hget : s.entries.get? r.key = some e)
    (hphase : e.phase = .running) (hsome : e.waiters ≠ []) (hcovers : r.waiters ≠ []) :
    Move settings s (r.awaited outcome)
      { s with
        runs := without s.runs r
        entries := s.entries.insert r.key
          ({ e with phase := .debouncing, queued := false }.armed (s.lastId + 1))
        lastId := s.lastId + 1 }
      (.arm r.key (s.lastId + 1) (settings.delayOf e.reason e.overrideMs) ::
        r.waiters.map .resolve)
  | cleared : Move settings s .clear (clear s).1 (clear s).2
  /-- what is no longer current is ignored -/
  | ignored (event : Event) (hstale : ¬ s.Heeds event) : Move settings s event s []

-- ── Runs by key ───────────────────────────────────────────────────────────────

/-- A run in flight is that of its key. -/
theorem flight?_key {s : Scheduler} {key : String} {r : Run} (h : s.flight? key = some r) :
    r.key = key := by
  simpa using List.find?_some h

/-- A run in flight is one of all runs. -/
theorem mem_runs_of_flight? {s : Scheduler} {key : String} {r : Run}
    (h : s.flight? key = some r) : r ∈ s.runs := List.mem_of_find?_eq_some h

/-- Of runs with distinct keys each is the one that its key finds. -/
theorem flight?_eq_some {s : Scheduler} (hd : (s.runs.map (·.key)).Nodup) {key : String}
    {r : Run} : s.flight? key = some r ↔ r ∈ s.runs ∧ r.key = key := by
  refine ⟨fun h => ⟨mem_runs_of_flight? h, flight?_key h⟩, ?_⟩
  rintro ⟨hr, rfl⟩
  cases hf : s.flight? r.key with
  | none =>
    have hno := List.find?_eq_none.mp hf r hr
    simp at hno
  | some q =>
    have hq : q = r := List.inj_on_of_nodup_map hd (mem_runs_of_flight? hf) hr (flight?_key hf)
    rw [hq]

/-- Every run of a sound scheduler is the one in flight for its key. -/
theorem Sound.flight?_of_mem {s : Scheduler} (hs : s.Sound) {r : Run} (hr : r ∈ s.runs) :
    s.flight? r.key = some r :=
  (flight?_eq_some hs.distinct).mpr ⟨hr, rfl⟩

/-- In a sound state the key alone tells a run from the others. -/
theorem Sound.is_iff {s : Scheduler} (hs : s.Sound) {r q : Run} (hr : s.flight? r.key = some r)
    (hq : q ∈ s.runs) : q.is r.key r.epoch = true ↔ q.key = r.key := by
  refine ⟨fun h => ?_, fun h => ?_⟩
  · simp only [Run.is, Bool.and_eq_true, beq_iff_eq] at h
    exact h.1
  · have hsame : s.flight? r.key = some q := h ▸ hs.flight?_of_mem hq
    rw [hr] at hsame
    cases hsame
    simp [Run.is]

/-- A run that goes on keeps its place among the runs. -/
theorem keys_advanced (runs : List Run) (r : Run) (n : Nat) (rest : List Nat) :
    (advanced runs r n rest).map (·.key) = runs.map (·.key) := by
  rw [advanced, List.map_map]
  refine List.map_congr_left fun q _ => ?_
  by_cases h : q.is r.key r.epoch = true
  · have hk : q.key = r.key := by
      simp only [Run.is, Bool.and_eq_true, beq_iff_eq] at h
      exact h.1
    simp [h, hk]
  · simp [h]

/-- Fewer runs do not share a key either. -/
theorem distinct_without {runs : List Run} (hd : (runs.map (·.key)).Nodup) (r : Run) :
    ((without runs r).map (·.key)).Nodup :=
  hd.sublist (List.filter_sublist.map _)

/-- The run that goes on has changed, and the others have not. -/
theorem Sound.mem_advanced {s : Scheduler} (hs : s.Sound) {r q : Run}
    (hr : s.flight? r.key = some r) {n : Nat} {rest : List Nat} :
    q ∈ advanced s.runs r n rest ↔
      q = { r with stage := .task n, tasks := rest } ∨ (q ∈ s.runs ∧ q.key ≠ r.key) := by
  rw [advanced, List.mem_map]
  constructor
  · rintro ⟨a, ha, rfl⟩
    by_cases h : a.is r.key r.epoch = true
    · rw [if_pos h]; exact Or.inl rfl
    · rw [if_neg h]; exact Or.inr ⟨ha, fun hk => h ((hs.is_iff hr ha).mpr hk)⟩
  · rintro (rfl | ⟨hq, hk⟩)
    · exact ⟨r, mem_runs_of_flight? hr, by simp [Run.is]⟩
    · exact ⟨q, hq, if_neg fun h => hk ((hs.is_iff hr hq).mp h)⟩

/-- The run that ends is gone, and the others are there. -/
theorem Sound.mem_without {s : Scheduler} (hs : s.Sound) {r q : Run}
    (hr : s.flight? r.key = some r) :
    q ∈ without s.runs r ↔ q ∈ s.runs ∧ q.key ≠ r.key := by
  rw [without, List.mem_filter]
  constructor
  · rintro ⟨hq, h⟩
    exact ⟨hq, fun hk => by simp [(hs.is_iff hr hq).mpr hk] at h⟩
  · rintro ⟨hq, hk⟩
    refine ⟨hq, ?_⟩
    simpa using fun h => hk ((hs.is_iff hr hq).mp h)

/-- After a run has gone on to its next task. -/
theorem Sound.flight?_advanced {s t : Scheduler} (hs : s.Sound) {r : Run}
    (hr : s.flight? r.key = some r) {n : Nat} {rest : List Nat}
    (ht : t.runs = advanced s.runs r n rest) (key : String) :
    t.flight? key =
      if key = r.key then some { r with stage := .task n, tasks := rest } else s.flight? key := by
  have hd : (t.runs.map (·.key)).Nodup := by rw [ht, keys_advanced]; exact hs.distinct
  by_cases hk : key = r.key
  · subst hk
    rw [if_pos rfl, flight?_eq_some hd, ht, hs.mem_advanced hr]
    exact ⟨Or.inl rfl, rfl⟩
  · rw [if_neg hk]
    ext q
    rw [flight?_eq_some hd, flight?_eq_some hs.distinct, ht, hs.mem_advanced hr]
    constructor
    · rintro ⟨rfl | ⟨hq, _⟩, rfl⟩
      · exact absurd rfl hk
      · exact ⟨hq, rfl⟩
    · rintro ⟨hq, rfl⟩
      exact ⟨Or.inr ⟨hq, hk⟩, rfl⟩

/-- After a run has ended. -/
theorem Sound.flight?_without {s t : Scheduler} (hs : s.Sound) {r : Run}
    (hr : s.flight? r.key = some r) (ht : t.runs = without s.runs r) (key : String) :
    t.flight? key = if key = r.key then none else s.flight? key := by
  have hd : (t.runs.map (·.key)).Nodup := ht ▸ distinct_without hs.distinct r
  ext q
  rw [flight?_eq_some hd, ht, hs.mem_without hr]
  by_cases hk : key = r.key
  · rw [if_pos hk]
    refine ⟨?_, fun h => nomatch h⟩
    rintro ⟨⟨_, hq⟩, rfl⟩
    exact absurd hk hq
  · rw [if_neg hk, flight?_eq_some hs.distinct]
    constructor
    · rintro ⟨⟨hq, _⟩, rfl⟩
      exact ⟨hq, rfl⟩
    · rintro ⟨hq, rfl⟩
      exact ⟨⟨hq, hk⟩, rfl⟩

/-- After a run has started for a key that had none. -/
theorem Sound.flight?_append {s t : Scheduler} (hs : s.Sound) {r : Run}
    (hnew : s.flight? r.key = none) (ht : t.runs = s.runs ++ [r]) :
    (t.runs.map (·.key)).Nodup ∧
      ∀ key, t.flight? key = if key = r.key then some r else s.flight? key := by
  have hno : ∀ q ∈ s.runs, q.key ≠ r.key := fun q hq hk => by
    have hsome := hs.flight?_of_mem hq
    rw [hk, hnew] at hsome
    cases hsome
  have hd : (t.runs.map (·.key)).Nodup := by
    rw [ht, List.map_append, List.nodup_append]
    refine ⟨hs.distinct, by simp, ?_⟩
    intro a ha b hb
    obtain ⟨q, hq, rfl⟩ := List.mem_map.mp ha
    have hb' : b = r.key := by simpa using hb
    exact hb' ▸ hno q hq
  refine ⟨hd, fun key => ?_⟩
  ext q
  rw [flight?_eq_some hd, ht, List.mem_append, List.mem_singleton]
  by_cases hk : key = r.key
  · rw [if_pos hk]
    constructor
    · rintro ⟨hq | rfl, rfl⟩
      · exact absurd hk (hno q hq)
      · rfl
    · intro h
      cases h
      exact ⟨Or.inr rfl, hk.symm⟩
  · rw [if_neg hk, flight?_eq_some hs.distinct]
    constructor
    · rintro ⟨hq | rfl, rfl⟩
      · exact ⟨hq, rfl⟩
      · exact absurd rfl hk
    · rintro ⟨hq, rfl⟩
      exact ⟨Or.inl hq, rfl⟩

-- ── Every step is a move ──────────────────────────────────────────────────────

variable (settings : SchedulerSettings) {s : Scheduler}

/-- A request makes one of the moves. -/
private theorem schedule_move (r : SyncRequest) (hs : s.Sound) :
    Move settings s (.schedule r) (schedule settings s r).1 (schedule settings s r).2 := by
  unfold schedule
  cases hget : s.entries.get? r.key with
  | none => exact Move.opened r hget
  | some e =>
    rcases hs.phase_of_get? hget with hdeb | hrun
    · have hdisarm : (e.join (s.requests + 1) r).disarm r.key = [.disarm r.key e.token] := by
        simp [Entry.disarm, Entry.join, (hs.of_debouncing hget hdeb).2.1]
      simp only [hdeb, reduceCtorEq, if_false, arm, hdisarm]
      exact Move.rearmed r hget hdeb
    · simp only [hrun, if_true]
      exact Move.queued r hget hrun

/-- A timer that fires makes one of the moves. -/
private theorem fire_move (key : String) (token : Nat) :
    Move settings s (.timer key token) (fire s key token).1 (fire s key token).2 := by
  unfold fire
  cases hget : s.entries.get? key with
  | none =>
    refine Move.ignored _ ?_
    rintro ⟨e, he, _⟩
    rw [hget] at he
    cases he
  | some e =>
    by_cases h : e.token = token ∧ e.phase = .debouncing
    · simp only [h, and_self, if_true]
      obtain ⟨rfl, hdeb⟩ := h
      exact Move.fired key hget hdeb
    · simp only [h, if_false]
      refine Move.ignored _ ?_
      rintro ⟨a, ha, hdeb, htok⟩
      rw [hget] at ha
      cases ha
      exact h ⟨htok, hdeb⟩

/-- A key that is running and has nothing pending becomes idle when its run ends. -/
theorem finish_of_idle {key : String} {e : Entry} (hget : s.entries.get? key = some e)
    (hphase : e.phase = .running) (hnone : e.hasPending = false) :
    finish settings s key e.epoch = ({ s with entries := s.entries.erase key }, []) := by
  unfold finish
  simp only [hget, hphase, hnone, and_self, if_true, Bool.false_eq_true, if_false]

/-- A key that is running and has requests waiting is armed again when its run ends. -/
theorem finish_of_pending {key : String} {e : Entry} (hget : s.entries.get? key = some e)
    (hphase : e.phase = .running) (htimer : e.timer = none) (hsome : e.hasPending = true) :
    finish settings s key e.epoch =
      ({ s with
          entries := s.entries.insert key
            ({ e with phase := .debouncing, queued := false }.armed (s.lastId + 1))
          lastId := s.lastId + 1 },
        [.arm key (s.lastId + 1) (settings.delayOf e.reason e.overrideMs)]) := by
  unfold finish
  simp only [hget, hphase, hsome, and_self, if_true, arm, Entry.disarm, htimer]
  rfl

/-- A run without tasks left ends. -/
theorem proceed_of_last {r : Run} (htasks : r.tasks = []) :
    proceed settings s r =
      ((finish settings { s with runs := without s.runs r } r.key r.epoch).1,
        (finish settings { s with runs := without s.runs r } r.key r.epoch).2 ++
          r.waiters.map .resolve) := by
  rw [proceed, htasks]
  rfl

/-- A run in flight finds its entry when it ends, so it never ends without effect. -/
private theorem proceed_move {r : Run} (outcome : RunOutcome) (hs : s.Sound)
    (hr : s.flight? r.key = some r) :
    Move settings s (r.awaited outcome) (proceed settings s r).1 (proceed settings s r).2 := by
  cases htasks : r.tasks with
  | cons n rest =>
    have hstep : proceed settings s r =
        ({ s with runs := advanced s.runs r n rest }, [.startTask r.key r.epoch n]) := by
      rw [proceed, htasks]
      rfl
    rw [hstep]
    exact Move.nextTask outcome hr htasks
  | nil =>
    obtain ⟨e, hget, hphase, htimer, hqueued, hdue, hepoch, hcovers⟩ := hs.of_flight hr
    have hpending : e.hasPending = true ↔ e.waiters ≠ [] := by
      simp only [Entry.hasPending, Bool.or_eq_true, hqueued, Bool.not_eq_true',
        List.isEmpty_eq_false_iff]
      tauto
    rw [proceed_of_last settings htasks, ← hepoch]
    by_cases hw : e.waiters = []
    · have hnone : e.hasPending = false := by
        rw [Bool.eq_false_iff, Ne, hpending, not_not]
        exact hw
      rw [finish_of_idle settings (s := { s with runs := without s.runs r }) hget hphase hnone]
      exact Move.ended outcome hr htasks hget hphase hw hcovers
    · rw [finish_of_pending settings (s := { s with runs := without s.runs r }) hget hphase
        htimer (hpending.mpr hw)]
      exact Move.followed outcome hr htasks hget hphase hw hcovers

/-- The run of a key and an epoch that is at a stage is the one that waits for that event. -/
private theorem proceedFrom_move {event : Event} {key : String} {epoch : Nat} {stage : Stage}
    (outcome : RunOutcome) (hs : s.Sound)
    (hawaited : ∀ r : Run, r.awaited outcome = event ↔
      r.key = key ∧ r.epoch = epoch ∧ r.stage = stage)
    (hheeds : s.Heeds event → ∃ r ∈ s.runs, r.awaited outcome = event) :
    Move settings s event (proceedFrom settings s key epoch stage).1
      (proceedFrom settings s key epoch stage).2 := by
  unfold proceedFrom
  cases hf : s.runs.find? fun r => r.is key epoch && r.stage == stage with
  | none =>
    refine Move.ignored event fun h => ?_
    obtain ⟨r, hr, he⟩ := hheeds h
    obtain ⟨rfl, rfl, rfl⟩ := (hawaited r).mp he
    have hno := List.find?_eq_none.mp hf r hr
    simp [Run.is] at hno
  | some r =>
    have hmem := List.mem_of_find?_eq_some hf
    have hat := List.find?_some hf
    simp only [Run.is, Bool.and_eq_true, beq_iff_eq] at hat
    have he := (hawaited r).mpr ⟨hat.1.1, hat.1.2, hat.2⟩
    rw [← he]
    exact proceed_move settings outcome hs (hs.flight?_of_mem hmem)

/-- In a sound state every event makes one of the moves. -/
theorem step_move (hs : s.Sound) (event : Event) :
    Move settings s event (s.step settings event).1 (s.step settings event).2 := by
  cases event with
  | schedule r => exact schedule_move settings r hs
  | timer key token => exact fire_move settings key token
  | runEnded key epoch outcome =>
    refine proceedFrom_move settings outcome hs (fun r => ?_) id
    cases h : r.stage <;> simp [Run.awaited, h]
  | taskEnded key epoch n outcome =>
    refine proceedFrom_move settings outcome hs (fun r => ?_) id
    cases h : r.stage <;> simp [Run.awaited, h]
  | clear => exact Move.cleared

end ProofLedger.Scheduler
