import ProofLedger.Proofs.Scheduler.Chronicle
import ProofLedger.Proofs.Scheduler.Lane

/-!
# The view of a key

What a timeline shows of a key is told in terms of the key alone: its requests are counted on their
own (`ordinal?`), and its entry, its run in flight and what is planned for it are what goes on on a
lane (`Shows`). An event of the key does to the lane what it does to the timeline: what is due is
the next thing that happens (`Shows.proceed`), a request joins the others (`Shows.request`), and a
clear drops those that no run has taken (`Shows.clear`).
-/

namespace ProofLedger

open Scheduler
open Lane (Ask Doing takeWork)

-- ── Requests counted by key ───────────────────────────────────────────────────

/-- The keys of the requests among steps, in order. -/
def keysOf (steps : List Script.Step) : List String :=
  steps.filterMap fun
    | .schedule r _ => some r.key
    | _ => none

/-- The number among the requests of a key of the one that has a number among all requests, given
    the keys of all. -/
def ordinal? (key : String) (keys : List String) : Nat → Option Nat
  | 0 => none
  | n + 1 => if keys[n]? = some key then some ((keys.take (n + 1)).count key) else none

/-- What is observed of a key, with its requests counted on their own. -/
def Happening.about (key : String) (keys : List String) : Happening → Option Happening
  | .started k reason => if k = key then some (.started k reason) else none
  | .ended k outcome => if k = key then some (.ended k outcome) else none
  | .taskStarted k n => if k = key then (ordinal? key keys n).map (.taskStarted k) else none
  | .resolved n => (ordinal? key keys n).map .resolved

/-- Whether a number among all requests and one among those of a key name the same request. -/
def Names (key : String) (keys : List String) (n m : Nat) : Prop := ordinal? key keys n = some m

/-- What a log says of a key. -/
def logAbout (key : String) (keys : List String) (log : List (Nat × Happening)) :
    List (Nat × Happening) :=
  log.filterMap fun x => (x.2.about key keys).map (Prod.mk x.1)

section Naming

variable {key : String} {keys : List String}

/-- A log tells of a key what its parts tell. -/
theorem logAbout_append (log : List (Nat × Happening)) (time : Nat)
    (happenings : List Happening) :
    logAbout key keys (log ++ happenings.map (Prod.mk time)) =
      logAbout key keys log ++
        (happenings.filterMap (Happening.about key keys)).map (Prod.mk time) := by
  unfold logAbout
  rw [List.filterMap_append, List.filterMap_map, List.map_filterMap]
  rfl

/-- The next request gets the next number of its key. -/
theorem ordinal?_next (before later : List String) :
    ordinal? key (before ++ key :: later) (before.length + 1) = some (before.count key + 1) := by
  rw [ordinal?, if_pos (by simp), List.take_length_add_append, List.count_append]
  simp

example : ordinal? "b" ["a", "b", "a", "b"] 4 = some 2 := by decide

/-- Requests that are named by their numbers are resolved under their names. -/
theorem about_resolved {numbers covered : List Nat}
    (h : List.Forall₂ (Names key keys) numbers covered) :
    (numbers.map Happening.resolved).filterMap (Happening.about key keys) =
      covered.map .resolved := by
  induction h with
  | nil => rfl
  | @cons n m _ _ hname _ ih =>
    have hhead : Happening.about key keys (.resolved n) = some (.resolved m) :=
      congrArg (Option.map Happening.resolved) hname
    rw [List.map_cons, List.filterMap_cons_some hhead, ih]
    rfl

end Naming

-- ── The world of a script ─────────────────────────────────────────────────────

namespace Script

/-- The runs of a key that are to come. -/
def runsOf (s : Script) (key : String) : List Work := (s.runs.get? key).getD []

/-- The next run of a key is the next work on its lane. -/
theorem takeRun_self (s : Script) (key : String) :
    (s.takeRun key).ms = (takeWork (s.runsOf key)).1.ms ∧
      (s.takeRun key).outcome = (takeWork (s.runsOf key)).1.outcome ∧
      (s.takeRun key).world.runsOf key = (takeWork (s.runsOf key)).2 := by
  unfold takeRun runsOf
  cases h : s.runs.get? key with
  | none => simp [takeWork, h]
  | some works => cases works <;> simp [takeWork, h]

/-- The next run of a key leaves the work of the other keys alone. -/
theorem takeRun_other (s : Script) {k key : String} (h : k ≠ key) :
    (s.takeRun k).world.runsOf key = s.runsOf key := by
  unfold takeRun runsOf
  split
  · exact congrArg (Option.getD · []) (Table.get?_insert_ne _ h _)
  · rfl

theorem tasks_takeRun (s : Script) (key : String) : (s.takeRun key).world.tasks = s.tasks := by
  unfold takeRun
  split <;> rfl

theorem world_takeTask (s : Script) (n : Nat) : (s.takeTask n).world = s := by
  unfold takeTask
  split <;> rfl

/-- A request registers its task under its number. -/
theorem step_schedule (settings : SchedulerSettings) (t : Timeline Script) (r : SyncRequest)
    (task : Option Work) :
    step settings t (.schedule r task) =
      Timeline.tell settings worker
        { t with world := { t.world with
            tasks := t.world.tasks ++ (task.map (Prod.mk (t.scheduler.requests + 1))).toList } }
        (.schedule { r with hasTask := task.isSome }) := by
  cases task with
  | none => simp [step, Timeline.schedule]
  | some work => rfl

/-- The work on a task is what is written down for it. -/
theorem takeTask_of_lookup {s : Script} {n : Nat} {work : Work}
    (h : s.tasks.lookup n = some work) :
    s.takeTask n = { world := s, ms := work.ms, outcome := work.outcome } := by
  unfold takeTask
  rw [h]

end Script

namespace Timeline

open Script (worker)

variable (settings : SchedulerSettings) (t : Timeline Script)

/-- Effects leave what is written down of tasks. -/
theorem tasks_foldl (effects : List Effect) :
    (effects.foldl (perform worker) t).world.tasks = t.world.tasks := by
  induction effects generalizing t with
  | nil => rfl
  | cons f rest ih =>
    rw [List.foldl_cons, ih]
    cases f with
    | startRun key epoch reason => exact t.world.tasks_takeRun key
    | startTask key epoch n => exact congrArg Script.tasks (t.world.world_takeTask n)
    | _ => rfl

/-- The effects for one key leave the runs of the others. -/
theorem runsOf_foldl_other {effects : List Effect} {key : String}
    (h : ∀ f ∈ effects, f.key? ≠ some key) :
    (effects.foldl (perform worker) t).world.runsOf key = t.world.runsOf key := by
  induction effects generalizing t with
  | nil => rfl
  | cons f rest ih =>
    rw [List.foldl_cons, ih _ fun g hg => h g (List.mem_cons_of_mem f hg)]
    cases f with
    | startRun k epoch reason =>
      exact t.world.takeRun_other fun hk => h _ List.mem_cons_self (congrArg some hk)
    | startTask k epoch n => exact congrArg (Script.runsOf · key) (t.world.world_takeTask n)
    | _ => rfl

/-- Effects that enter nothing into the agenda leave the world as it is. -/
theorem world_quiet {effects : List Effect} (hquiet : ∀ f ∈ effects, f.plans = false) :
    (effects.foldl (perform worker) t).world = t.world := by
  induction effects generalizing t with
  | nil => rfl
  | cons f rest ih =>
    have hf := hquiet f List.mem_cons_self
    rw [List.foldl_cons, ih _ fun g hg => hquiet g (List.mem_cons_of_mem _ hg)]
    cases f with
    | arm | startRun | startTask => cases hf
    | disarm | resolve => rfl

theorem world_observed (e : Event) : (t.observed e).world = t.world := by
  cases e <;> rfl

/-- What the tasks of requests are is never forgotten. -/
theorem tasks_tell (e : Event) : (tell settings worker t e).world.tasks = t.world.tasks :=
  (tasks_foldl _ _).trans (congrArg Script.tasks (world_observed t e))

end Timeline

/-- What the end of the work of a run tells of the run proper. -/
def Scheduler.Run.ends (r : Run) (outcome : RunOutcome) : Option RunOutcome :=
  match r.stage with
  | .runner => some outcome
  | .task _ => none

/-- The end of a run is seen on its key. -/
theorem about_awaited {key : String} {keys : List String} {r : Run} (hkey : r.key = key)
    (outcome : RunOutcome) :
    (r.awaited outcome).happening?.toList.filterMap (Happening.about key keys) =
      ((r.ends outcome).map (Happening.ended key)).toList := by
  subst hkey
  unfold Run.awaited Run.ends
  cases r.stage with
  | runner => simp [Event.happening?, Happening.about]
  | task n => rfl

-- ── Entries and lanes ─────────────────────────────────────────────────────────

namespace Lane

section Shows

variable (key : String) (keys : List String) (tasks : List (Nat × Work))

/-- Whether a request has a task, given by its number among those of the key. -/
def NamesTask (n : Nat) (task : Nat × Work) : Prop :=
  Names key keys n task.1 ∧ tasks.lookup n = some task.2

/-- An entry that holds the requests of a lane. -/
structure Holds (e : Entry) (asks : List Ask) : Prop where
  waiters : List.Forall₂ (Names key keys) e.waiters (asks.map (·.number))
  tasks : List.Forall₂ (NamesTask key keys tasks) e.tasks (Lane.tasksOf asks)
  last : ∀ last ∈ asks.getLast?, e.reason = last.reason ∧ e.overrideMs = last.overrideMs

/-- Whether the entry of a key, its run in flight and what is planned for it are what goes on on a
    lane. -/
inductive Shows : Option Entry → Option Run → Agenda Event → Doing → Prop where
  | nothing : Shows none none [] .nothing
  | waiting {e : Entry} {asks : List Ask} (due : Nat) (hasks : Holds key keys tasks e asks) :
    Shows (some e) none [(due, .timer key e.token)] (.waiting due e.reason asks)
  | working {e : Entry} {r : Run} {covered : List Nat} {rest : List (Nat × Work)}
    {asks : List Ask} (due : Nat) (outcome : RunOutcome) (hkey : r.key = key)
    (hasks : Holds key keys tasks e asks)
    (hcovered : List.Forall₂ (Names key keys) r.waiters covered)
    (hrest : List.Forall₂ (NamesTask key keys tasks) r.tasks rest) :
    Shows (some e) (some r) [(due, r.awaited outcome)]
      (.working due (r.ends outcome) covered rest asks)

end Shows

section Shows

variable {key : String} {keys : List String} {tasks : List (Nat × Work)}

/-- Tasks that are written down later make no difference. -/
theorem NamesTask.extend {n : Nat} {task : Nat × Work} (h : NamesTask key keys tasks n task)
    (more : List (Nat × Work)) : NamesTask key keys (tasks ++ more) n task := by
  refine ⟨h.1, ?_⟩
  rw [List.lookup_append, h.2]
  rfl

/-- An entry holds the same requests when more tasks are written down. -/
theorem Holds.extend {e : Entry} {asks : List Ask} (h : Holds key keys tasks e asks)
    (more : List (Nat × Work)) : Holds key keys (tasks ++ more) e asks where
  waiters := h.waiters
  tasks := h.tasks.imp fun _ _ htask => htask.extend more
  last := h.last

/-- A key shows the same when more tasks are written down. -/
theorem Shows.extend {e : Option Entry} {r : Option Run} {p : Agenda Event} {doing : Doing}
    (h : Shows key keys tasks e r p doing) (more : List (Nat × Work)) :
    Shows key keys (tasks ++ more) e r p doing := by
  cases h with
  | nothing => exact .nothing
  | waiting due hasks => exact .waiting due (hasks.extend more)
  | working due outcome hkey hasks hcovered hrest =>
    exact .working due outcome hkey (hasks.extend more) hcovered
      (hrest.imp fun _ _ htask => htask.extend more)

/-- Only reason, override and requests of an entry count. -/
theorem Holds.congr {e f : Entry} {asks : List Ask} (h : Holds key keys tasks e asks)
    (hwaiters : f.waiters = e.waiters) (htasks : f.tasks = e.tasks) (hreason : f.reason = e.reason)
    (hoverride : f.overrideMs = e.overrideMs) : Holds key keys tasks f asks where
  waiters := hwaiters ▸ h.waiters
  tasks := htasks ▸ h.tasks
  last := by rw [hreason, hoverride]; exact h.last

/-- An entry without requests holds none. -/
theorem Holds.none {e : Entry} (hwaiters : e.waiters = []) (htasks : e.tasks = []) :
    Holds key keys tasks e [] where
  waiters := by rw [hwaiters]; exact .nil
  tasks := by rw [htasks]; exact .nil
  last _ h := nomatch h

/-- A lane has no requests if the entry has none. -/
theorem Holds.asks_eq_nil_iff {e : Entry} {asks : List Ask} (h : Holds key keys tasks e asks) :
    asks = [] ↔ e.waiters = [] := by
  have hlength := h.waiters.length_eq
  rw [List.length_map] at hlength
  rw [← List.length_eq_zero_iff, ← List.length_eq_zero_iff, hlength]

/-- One more request. -/
theorem Holds.join {e : Entry} {asks : List Ask} (h : Holds key keys tasks e asks) {n : Nat}
    {ask : Ask} {r : SyncRequest} (hname : Names key keys n ask.number)
    (hreason : ask.reason = r.reason) (hoverride : ask.overrideMs = r.overrideMs)
    (htask : r.hasTask = ask.task.isSome)
    (hlookup : ∀ work, ask.task = some work → tasks.lookup n = some work) :
    Holds key keys tasks (e.join n r) (asks ++ [ask]) where
  waiters := by
    rw [List.map_append]
    exact List.rel_append h.waiters (.cons hname .nil)
  tasks := by
    show List.Forall₂ _ (if r.hasTask then e.tasks ++ [n] else e.tasks) _
    rw [htask, Lane.tasksOf_concat]
    cases hw : ask.task with
    | none =>
      rw [Option.map_none, Option.toList_none, List.append_nil]
      exact h.tasks
    | some work => exact List.rel_append h.tasks (.cons ⟨hname, hlookup work hw⟩ .nil)
  last last hlast := by
    rw [List.getLast?_concat] at hlast
    cases hlast
    exact ⟨hreason.symm, hoverride.symm⟩

end Shows

-- ── Events of the key ─────────────────────────────────────────────────────────

section Own

open Timeline
open Script (worker)

variable {key : String} {keys : List String} {settings : SchedulerSettings}

/-- Whether a lane goes on as the timeline does for its key when it is told an event. -/
structure Proceeds (key : String) (keys : List String) (t : Timeline Script) (event : Event)
    (effects : List Effect) (e : Option Entry) (r : Option Run) (lane lane' : Lane) : Prop where
  /-- what the event leaves of the key is what goes on on the lane, -/
  doing : Shows key keys t.world.tasks e r
    (plansOf key (effects.foldl (perform worker) t).agenda) lane'.doing
  /-- the same runs are still to come, -/
  runs : (effects.foldl (perform worker) t).world.runsOf key = lane'.runs
  /-- and what is observed of the key is written to the log of the lane -/
  log : lane'.log = lane.log ++
    ((event.happening?.toList ++ effects.filterMap Effect.happening?).filterMap
      (Happening.about key keys)).map (Prod.mk t.now)

/-- Requests that are resolved leave the world as it is. -/
theorem world_resolve (numbers : List Nat) (t : Timeline Script) :
    ((numbers.map Effect.resolve).foldl (perform worker) t).world = t.world := by
  refine world_quiet t fun f hf => ?_
  obtain ⟨n, _, rfl⟩ := List.mem_map.mp hf
  rfl

/-- A timer that is armed for the requests that wait is all that is planned for their key. -/
theorem Shows.armed {tasks : List (Nat × Work)} {e : Entry} {asks : List Ask} {a : Agenda Event}
    (hasks : Holds key keys tasks e asks) (hplans : plansOf key a = []) (due token : Nat) :
    Shows key keys tasks (some (e.armed token)) none
      (plansOf key (a.enter due (.timer key token))) (.waiting due e.reason asks) := by
  rw [plansOf_enter_self rfl hplans]
  exact .waiting (e := e.armed token) due (hasks.congr rfl rfl rfl rfl)

-- An event that was all that was planned for the key: one lemma for each thing that it can be.
section Due

variable {t : Timeline Script} {lane : Lane} {e : Entry} {asks : List Ask}
  (hasks : Holds key keys t.world.tasks e asks) (hruns : t.world.runsOf key = lane.runs)
  (hplans : plansOf key t.agenda = [])

include hasks hruns hplans

/-- The timer fires: the next run takes all requests. -/
theorem Proceeds.of_fired (hdoing : lane.doing = .waiting t.now e.reason asks) :
    Proceeds key keys t (.timer key e.token) [.startRun key e.epoch e.reason] (some e.fired)
      (some (e.run key)) lane (lane.proceed settings key) := by
  obtain ⟨runs, asked, doing, now, log⟩ := lane
  obtain rfl : doing = .waiting t.now e.reason asks := hdoing
  obtain ⟨hms, houtcome, hrest⟩ := t.world.takeRun_self key
  rw [hruns] at hms houtcome hrest
  refine ⟨?_, hrest, ?_⟩
  · show Shows key keys t.world.tasks _ _ (plansOf key (t.agenda.enter
      (t.now + (t.world.takeRun key).ms) (.runEnded key e.epoch (t.world.takeRun key).outcome)))
      (.working (t.now + (takeWork runs).1.ms) (some (takeWork runs).1.outcome) _ _ [])
    rw [plansOf_enter_self rfl hplans, hms, houtcome]
    exact .working (r := e.run key) _ _ rfl (.none rfl rfl) hasks.waiters hasks.tasks
  · simp [Lane.proceed, Lane.note, Event.happening?, Effect.happening?, Happening.about]

variable {r : Run} {covered : List Nat} {outcome : RunOutcome} (hkey : r.key = key)
  (hcovered : List.Forall₂ (Names key keys) r.waiters covered)

include hkey hcovered

/-- The run, or a task of it, ends, and the next task starts. -/
theorem Proceeds.of_nextTask {n : Nat} {ns : List Nat} {task : Nat × Work}
    {rest : List (Nat × Work)} (htask : NamesTask key keys t.world.tasks n task)
    (hrest : List.Forall₂ (NamesTask key keys t.world.tasks) ns rest)
    (hdoing : lane.doing = .working t.now (r.ends outcome) covered (task :: rest) asks) :
    Proceeds key keys t (r.awaited outcome) [.startTask key r.epoch n] (some e)
      (some { r with stage := .task n, tasks := ns }) lane (lane.proceed settings key) := by
  subst hkey
  obtain ⟨runs, asked, doing, now, log⟩ := lane
  obtain rfl : doing = .working t.now (r.ends outcome) covered (task :: rest) asks := hdoing
  obtain ⟨m, work⟩ := task
  have hname : ordinal? r.key keys n = some m := htask.1
  have htake := Script.takeTask_of_lookup htask.2
  refine ⟨?_, ?_, ?_⟩
  · show Shows r.key keys t.world.tasks _ _ (plansOf r.key (t.agenda.enter
      (t.now + (t.world.takeTask n).ms) (.taskEnded r.key r.epoch n (t.world.takeTask n).outcome)))
      (.working (t.now + work.ms) none covered rest asks)
    rw [plansOf_enter_self rfl hplans, htake]
    exact .working (r := { r with stage := .task n, tasks := ns }) _ _ rfl hasks hcovered hrest
  · show (t.world.takeTask n).world.runsOf r.key = runs
    rw [htake]
    exact hruns
  · rw [List.filterMap_append, about_awaited rfl]
    simp [Lane.proceed, Lane.note, Effect.happening?, Happening.about, hname]

/-- All work of the run is done, and no request waits for another run. -/
theorem Proceeds.of_ended (hnone : e.waiters = [])
    (hdoing : lane.doing = .working t.now (r.ends outcome) covered [] asks) :
    Proceeds key keys t (r.awaited outcome) (r.waiters.map .resolve) none none lane
      (lane.proceed settings key) := by
  subst hkey
  obtain ⟨runs, asked, doing, now, log⟩ := lane
  obtain rfl : doing = .working t.now (r.ends outcome) covered [] asks := hdoing
  refine ⟨?_, (congrArg (Script.runsOf · r.key) (world_resolve _ _)).trans hruns, ?_⟩
  · rw [agenda_resolve, hplans]
    show Shows r.key keys t.world.tasks none none [] (.following settings t.now asks)
    rw [hasks.asks_eq_nil_iff.mpr hnone]
    exact .nothing
  · rw [List.filterMap_append, about_awaited rfl, happenings_resolve, about_resolved hcovered]
    rfl

/-- All work of the run is done, and requests wait for the next one. -/
theorem Proceeds.of_followed (token : Nat) (hsome : e.waiters ≠ [])
    (hdoing : lane.doing = .working t.now (r.ends outcome) covered [] asks) :
    Proceeds key keys t (r.awaited outcome)
      (.arm key token (settings.delayOf e.reason e.overrideMs) :: r.waiters.map .resolve)
      (some ({ e with phase := .debouncing, queued := false }.armed token)) none lane
      (lane.proceed settings key) := by
  subst hkey
  obtain ⟨runs, asked, doing, now, log⟩ := lane
  obtain rfl : doing = .working t.now (r.ends outcome) covered [] asks := hdoing
  obtain ⟨last, hlast⟩ : ∃ last, asks.getLast? = some last :=
    ⟨_, List.getLast?_eq_some_getLast fun hnil => hsome (hasks.asks_eq_nil_iff.mp hnil)⟩
  obtain ⟨hreason, hoverride⟩ := hasks.last last hlast
  have hfollowing : Doing.following settings t.now asks =
      .waiting (t.now + settings.delayOf e.reason e.overrideMs) e.reason asks := by
    rw [Doing.following, hlast, hreason, hoverride]
    rfl
  refine ⟨?_, (congrArg (Script.runsOf · r.key) (world_resolve _ _)).trans hruns, ?_⟩
  · rw [List.foldl_cons, agenda_resolve]
    show Shows r.key keys t.world.tasks _ none (plansOf r.key (t.agenda.enter (t.now + _)
      (.timer r.key token))) (.following settings t.now asks)
    rw [hfollowing]
    exact .armed (e := { e with phase := .debouncing, queued := false })
      (hasks.congr rfl rfl rfl rfl) hplans _ token
  · rw [List.filterMap_append, about_awaited rfl]
    show _ = log ++ (_ ++ ((r.waiters.map Effect.resolve).filterMap _).filterMap _).map _
    rw [happenings_resolve, about_resolved hcovered]
    rfl

end Due

/-- What is due for a key is the next thing that happens on its lane. -/
theorem Shows.proceed {t : Timeline Script} {s : Scheduler} {lane : Lane} {event : Event}
    {e e' : Option Entry} {f f' : Option Run} {effects : List Effect} {p : Agenda Event}
    {due : Nat} (h : Shows key keys t.world.tasks e f ((due, event) :: p) lane.doing)
    (hruns : t.world.runsOf key = lane.runs) (hplans : plansOf key t.agenda = p)
    (hnow : t.now = due) (hheeds : s.Heeds event)
    (hchange : Change settings s key event e f e' f' effects) :
    Proceeds key keys t event effects e' f' lane (lane.proceed settings key) := by
  subst hnow
  generalize hdoing : lane.doing = doing at h
  -- the event is the one that is planned, so it is current and only some changes are possible
  cases h with
  | @waiting e asks due hasks =>
    generalize hevent : Event.timer key e.token = event at hchange hheeds ⊢
    cases hchange with
    | rearmed => cases hevent
    | fired => exact .of_fired hasks hruns hplans hdoing
    | ignored hstale => exact absurd hheeds hstale
  | @working e r covered rest asks due outcome hkey hasks hcovered hrest =>
    generalize hevent : r.awaited outcome = event at hchange hheeds ⊢
    cases hchange with
    | queued q => exact absurd hevent (awaited_ne_schedule r outcome q)
    | nextTask outcome' _ htasks =>
      rw [htasks] at hrest
      cases hrest with
      | cons htask hrest =>
        rw [← hevent]
        exact .of_nextTask hasks hruns hplans hkey hcovered htask hrest hdoing
    | ended outcome' _ htasks hnone =>
      rw [htasks] at hrest
      cases hrest
      rw [← hevent]
      exact .of_ended hasks hruns hplans hkey hcovered hnone hdoing
    | followed outcome' token _ htasks hsome =>
      rw [htasks] at hrest
      cases hrest
      rw [← hevent]
      exact .of_followed hasks hruns hplans hkey hcovered token hsome hdoing
    | ignored hstale => exact absurd hheeds hstale

/-- A request of a key joins the others on its lane. -/
theorem Shows.request {t : Timeline Script} {s : Scheduler} {doing : Doing} {r : SyncRequest}
    {e e' : Option Entry} {f f' : Option Run} {effects : List Effect} {p : Agenda Event}
    {number : Nat} {task : Option Work} (h : Shows key keys t.world.tasks e f p doing)
    (hplans : plansOf key t.agenda = p)
    (hchange : Change settings s key (.schedule r) e f e' f' effects)
    (hname : Names key keys (s.requests + 1) number) (htask : r.hasTask = task.isSome)
    (hlookup : ∀ work, task = some work → t.world.tasks.lookup (s.requests + 1) = some work) :
    Shows key keys t.world.tasks e' f' (plansOf key (effects.foldl (perform worker) t).agenda)
        (doing.join settings t.now ⟨number, r.reason, r.overrideMs, task⟩) ∧
      (effects.foldl (perform worker) t).world = t.world ∧
      effects.filterMap Effect.happening? = [] := by
  have hjoin : ∀ {e : Entry} {asks : List Ask}, Holds key keys t.world.tasks e asks →
      Holds key keys t.world.tasks (e.join (s.requests + 1) r)
        (asks ++ [⟨number, r.reason, r.overrideMs, task⟩]) :=
    fun hasks => hasks.join hname rfl rfl htask hlookup
  generalize hevent : Event.schedule r = event at hchange
  cases hchange with
  | opened r' epoch token hkey =>
    cases hevent
    cases h with
    | nothing =>
      exact ⟨.armed (hjoin (.none rfl rfl)) hplans _ token, rfl, rfl⟩
  | @rearmed r' token e hkey hphase =>
    cases hevent
    cases h with
    | waiting due hasks =>
      have hdropped : plansOf key (t.agenda.drop (.timer key e.token)) = [] := by
        rw [plansOf_drop, hplans]
        simp [Agenda.drop]
      exact ⟨.armed (hjoin hasks) hdropped _ token, rfl, rfl⟩
  | queued r' hkey hphase =>
    cases hevent
    cases h with
    | working due outcome hown hasks hcovered hrest =>
      refine ⟨?_, rfl, rfl⟩
      show Shows key keys t.world.tasks _ _ (plansOf key t.agenda) _
      rw [hplans]
      exact .working due outcome hown (hjoin hasks) hcovered hrest
  | fired => cases hevent
  | nextTask | ended | followed => exact absurd hevent.symm (awaited_ne_schedule _ _ r)
  | ignored hstale =>
    subst hevent
    exact absurd trivial hstale

/-- A clear drops the requests of a lane that no run has taken. -/
theorem Shows.clear {tasks : List (Nat × Work)} {s : Scheduler} {doing : Doing}
    {p : Agenda Event} (hs : s.Sound)
    (h : Shows key keys tasks (s.entries.get? key) (s.flight? key) p doing) :
    Shows key keys tasks ((Scheduler.clear s).1.entries.get? key)
      ((Scheduler.clear s).1.flight? key)
      (p.filter fun x => x.2.disarm?.all fun f => f ∉ (Scheduler.clear s).2) doing.cleared := by
  have hstanding := hs.standing key
  rw [get?_clear]
  show Shows key keys tasks _ (s.flight? key) _ _
  generalize hentry : s.entries.get? key = e at h hstanding
  generalize s.flight? key = f at h hstanding
  cases h with
  | nothing => exact .nothing
  | @waiting e asks due hasks =>
    cases hstanding with
    | debouncing hphase htimer =>
      have hdisarm := disarm_mem_clear hentry htimer
      rw [Option.bind_some, if_neg (by rw [hphase]; decide),
        List.filter_cons_of_neg (by simpa [Event.disarm?] using hdisarm)]
      exact .nothing
  | @working e r covered rest asks due outcome hkey hasks hcovered hrest =>
    cases hstanding with
    | running hphase =>
      rw [Option.bind_some, if_pos hphase, List.filter_cons_of_pos (by simp)]
      exact .working due outcome hkey (.none rfl rfl) hcovered hrest

end Own

-- ── What is read off a lane ───────────────────────────────────────────────────

section Shows

variable {key : String} {keys : List String} {tasks : List (Nat × Work)} {e : Option Entry}
  {r : Option Run} {p : Agenda Event} {doing : Doing} (h : Shows key keys tasks e r p doing)
include h

/-- The phase of a key is that of its lane. -/
theorem Shows.phase_eq (hstanding : Standing e r) :
    (e.map (·.phase)).getD .idle = doing.phase := by
  cases h with
  | nothing => rfl
  | waiting =>
    cases hstanding with
    | debouncing hphase => exact hphase
  | working =>
    cases hstanding with
    | running hphase => exact hphase

/-- What is due on a lane is planned for its key. -/
theorem Shows.mem_plans {due : Nat} (hdue : due ∈ doing.due?) : ∃ event, (due, event) ∈ p := by
  cases h with
  | nothing => cases hdue
  | waiting | working =>
    cases hdue
    exact ⟨_, List.mem_singleton.mpr rfl⟩

/-- What is planned for a key is due on its lane. -/
theorem Shows.due?_eq {x : Nat × Event} (hx : x ∈ p) : doing.due? = some x.1 := by
  cases h with
  | nothing => cases hx
  | waiting | working =>
    rw [List.mem_singleton.mp hx]
    rfl

/-- The requests that the entry of a key holds are those that no run has taken on its lane. -/
theorem Shows.waiters :
    List.Forall₂ (Names key keys) ((e.map (·.waiters)).getD []) (doing.asks.map (·.number)) := by
  cases h with
  | nothing => exact .nil
  | waiting due hasks => exact hasks.waiters
  | working due outcome hkey hasks => exact hasks.waiters

end Shows

end Lane

end ProofLedger
