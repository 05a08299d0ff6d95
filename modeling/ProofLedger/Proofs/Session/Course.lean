import ProofLedger.Session
import ProofLedger.Proofs.Scheduler.Invariant
import ProofLedger.Proofs.State.Isolation

/-!
# The course of a session

A session goes on by moments, at each of which its scheduler is told an event: a request, a timer
that expires, the end of a run. In between attempts and suggestions are committed, and contexts,
hints and the clock are replaced, but nothing that was derived changes (`Quiet`). Whatever the
steps of a session are, its timeline is one that has passed through the moments of its chronicle
(`course_run`).
-/

namespace ProofLedger

open Scheduler

-- ── Moments ───────────────────────────────────────────────────────────────────

/-- A moment of a session: its timeline, which is about to tell the scheduler an event. -/
structure Moment where
  before : Timeline Workspace
  event : Event

namespace Moment

variable (settings : SchedulerSettings) (m : Moment)

/-- What the scheduler asks for. -/
def effects : List Effect := (m.before.scheduler.step settings m.event).2

/-- The timeline afterwards. -/
def after : Timeline Workspace := m.before.tell settings Workspace.worker m.event

/-- Whether a run of a file starts. -/
def Starts (fileKey : String) : Prop :=
  ∃ epoch reason, .startRun fileKey epoch reason ∈ m.effects settings

/-- Whether a request is resolved. -/
def Resolves (number : Nat) : Prop := .resolve number ∈ m.effects settings

/-- Whether a request to sync a file is registered. -/
def Registers (number : Nat) (fileKey : String) : Prop :=
  ∃ r, m.event = .schedule r ∧ r.key = fileKey ∧ number = m.before.scheduler.requests + 1

end Moment

/-- Whether nothing happens to the scheduler from one timeline to another, and nothing that was
    derived changes. -/
structure Quiet (t t' : Timeline Workspace) : Prop where
  scheduler : t'.scheduler = t.scheduler
  log : t'.log = t.log
  files : t'.world.tree.get? "files" = t.world.tree.get? "files"

/-- A timeline that has passed through moments, with quiet times before, between and after
    them. -/
inductive Course (settings : SchedulerSettings) (start : Timeline Workspace) :
    List Moment → Timeline Workspace → Prop where
  | begun : Course settings start [] start
  | moment {ms : List Moment} {t : Timeline Workspace} (h : Course settings start ms t)
    (e : Event) : Course settings start (ms ++ [⟨t, e⟩]) (t.tell settings Workspace.worker e)
  | pause {ms : List Moment} {t t' : Timeline Workspace} (h : Course settings start ms t)
    (hquiet : Quiet t t') : Course settings start ms t'

-- ── Moving the clock ──────────────────────────────────────────────────────────

namespace Timeline

/-- The moments at which events are told that are due by a time, up to a number of them. -/
def momentsUntil (settings : SchedulerSettings) (deadline : Nat) :
    Nat → Timeline Workspace → List Moment
  | 0, _ => []
  | fuel + 1, t =>
    match t.agenda.next? deadline with
    | some ((due, e), rest) =>
      let called := { t with now := max t.now due, agenda := rest }
      ⟨called, e⟩ :: momentsUntil settings deadline fuel (called.tell settings Workspace.worker e)
    | none => []

/-- The moments until the clock is moved on. -/
def momentsAdvancing (settings : SchedulerSettings) (ms : Nat) (t : Timeline Workspace) :
    List Moment := momentsUntil settings (t.now + ms) t.workload t

/-- The moments until a request is resolved. -/
def momentsAwaiting (settings : SchedulerSettings) (request : Nat) :
    Nat → Timeline Workspace → List Moment
  | 0, _ => []
  | fuel + 1, t =>
    if t.isResolved request then []
    else match t.agenda with
      | [] => []
      | (due, _) :: _ => momentsAdvancing settings (due - t.now) t ++
          momentsAwaiting settings request fuel
            (t.advance settings Workspace.worker (due - t.now))

end Timeline

namespace Course

variable {settings : SchedulerSettings} {start t : Timeline Workspace} {ms : List Moment}

/-- A course goes on to any deadline. -/
theorem runUntil (h : Course settings start ms t) (deadline fuel : Nat) :
    Course settings start (ms ++ t.momentsUntil settings deadline fuel)
      (Timeline.runUntil settings Workspace.worker deadline fuel t) := by
  induction fuel generalizing ms t with
  | zero =>
    rw [Timeline.momentsUntil, List.append_nil]
    exact h
  | succ fuel ih =>
    rw [Timeline.momentsUntil, Timeline.runUntil, Timeline.next?]
    cases hnext : t.agenda.next? deadline with
    | none =>
      rw [List.append_nil]
      exact h
    | some x =>
      obtain ⟨⟨due, e⟩, rest⟩ := x
      have hcalled : Course settings start ms { t with now := max t.now due, agenda := rest } :=
        h.pause ⟨rfl, rfl, rfl⟩
      have hrest := ih (hcalled.moment e)
      rw [List.append_assoc] at hrest
      exact hrest

/-- A course goes on for any time. -/
theorem advance (h : Course settings start ms t) (time : Nat) :
    Course settings start (ms ++ t.momentsAdvancing settings time)
      (t.advance settings Workspace.worker time) :=
  (h.runUntil (t.now + time) t.workload).pause ⟨rfl, rfl, rfl⟩

/-- A course goes on until a request is resolved. -/
theorem await (h : Course settings start ms t) (request fuel : Nat) :
    Course settings start (ms ++ t.momentsAwaiting settings request fuel)
      (Timeline.await settings Workspace.worker request fuel t) := by
  induction fuel generalizing ms t with
  | zero =>
    rw [Timeline.momentsAwaiting, List.append_nil]
    exact h
  | succ fuel ih =>
    rw [Timeline.momentsAwaiting, Timeline.await]
    split
    · rw [List.append_nil]
      exact h
    · cases t.agenda with
      | nil =>
        rw [List.append_nil]
        exact h
      | cons x rest =>
        have hrest := ih (h.advance (x.1 - t.now))
        rw [List.append_assoc] at hrest
        exact hrest

end Course

-- ── Sessions ──────────────────────────────────────────────────────────────────

namespace Session

/-- What is done in a session. -/
inductive Step where
  /-- requests a sync -/
  | schedule (r : SyncRequest)
  /-- requests a sync and waits for it -/
  | sync (r : SyncRequest)
  /-- lets time pass -/
  | advance (ms : Nat)
  | shutdown
  | record (a : AttemptInput)
  | suggest (fileKey nodeId : String)
  | applyTactic (fileKey nodeId tactic : String)
  /-- replaces the payloads of the contexts -/
  | contexts (payloads : Table Json)
  /-- replaces the payloads of the hints, or the source of hints itself -/
  | hints (payloads : Option (Table Json))
  /-- sets the time of day -/
  | clock (now : Instant)

/-- The request to sync a file to which a tactic was applied. -/
def applyRequest (fileKey : String) : SyncRequest := { key := fileKey, reason := .apply }

/-- The session when a tactic was executed and recorded, and its file is not synced yet. -/
def recordedTactic (s : Session) (fileKey nodeId tactic : String) : Option Session :=
  match s.executor, tacticKey? tactic with
  | some answers, some tacticKey =>
    let request : TacticRequest := { fileKey, nodeId, tactic, tacticKey }
    let executed := s.execute answers request
    some (executed.1.record (attemptOf request
      (Recommendation.category? s.workspace.state fileKey nodeId) executed.2)).1
  | _, _ => none

/-- The session after a step. A tactic that cannot be applied changes nothing. -/
def step (s : Session) : Step → Session
  | .schedule r => s.schedule r
  | .sync r => s.sync r
  | .advance ms => s.advance ms
  | .shutdown => s.shutdown
  | .record a => (s.record a).1
  | .suggest fileKey nodeId => (s.suggest fileKey nodeId).1
  | .applyTactic fileKey nodeId tactic =>
    match s.applyTactic fileKey nodeId tactic with
    | .ok (applied, _) => applied
    | .error _ => s
  | .contexts contexts => s.modify fun w => { w with contexts }
  | .hints hints => s.modify fun w => { w with hints }
  | .clock clock => s.modify fun w => { w with clock }

/-- The session after steps. -/
def run (s : Session) (steps : List Step) : Session := steps.foldl step s

/-- The moments of a request that is waited for. -/
def momentsSyncing (s : Session) (r : SyncRequest) : List Moment :=
  let t := s.timeline.schedule s.scheduling Workspace.worker r
  ⟨s.timeline, .schedule r⟩ :: t.momentsAwaiting s.scheduling t.scheduler.requests t.workload

/-- The moments of a step. -/
def moments (s : Session) : Step → List Moment
  | .schedule r => [⟨s.timeline, .schedule r⟩]
  | .sync r => s.momentsSyncing r
  | .advance ms => s.timeline.momentsAdvancing s.scheduling ms
  | .shutdown => [⟨s.timeline, .clear⟩]
  | .applyTactic fileKey nodeId tactic =>
    ((s.recordedTactic fileKey nodeId tactic).map
      (·.momentsSyncing (applyRequest fileKey))).getD []
  | _ => []

/-- The moments of steps. -/
def chronicle : Session → List Step → List Moment
  | _, [] => []
  | s, x :: rest => s.moments x ++ chronicle (s.step x) rest

/-- A session that begins with a workspace. -/
def opened (world : Workspace) (scheduling : SchedulerSettings) (ranking : RankingSettings)
    (executor : Option (List ExecutorAnswer)) : Session :=
  { timeline := { world }, scheduling, ranking, executor }

/-- Applying a tactic is to record it, and then to sync its file. -/
theorem step_applyTactic (s : Session) (fileKey nodeId tactic : String) :
    s.step (.applyTactic fileKey nodeId tactic) =
      ((s.recordedTactic fileKey nodeId tactic).map (·.sync (applyRequest fileKey))).getD s := by
  rw [step, applyTactic, recordedTactic]
  cases s.executor with
  | none => rfl
  | some answers => cases tacticKey? tactic <;> rfl

-- ── What is quiet ─────────────────────────────────────────────────────────────

section Quiet

variable (s : Session)

/-- Whether one session is another in which nothing is synced. -/
structure Calm (s s' : Session) : Prop where
  quiet : Quiet s.timeline s'.timeline
  scheduling : s'.scheduling = s.scheduling

theorem calm_refl : Calm s s := ⟨⟨rfl, rfl, rfl⟩, rfl⟩

/-- Patches outside of what was derived are committed quietly. -/
theorem calm_commit {patches : List Patch}
    (h : (Patch.applyAll patches s.workspace.tree).get? "files" = s.workspace.tree.get? "files") :
    Calm s (s.commit patches) := ⟨⟨rfl, rfl, h⟩, rfl⟩

theorem calm_record (a : AttemptInput) : Calm s (s.record a).1 := by
  rw [record]
  dsimp only
  split
  · exact calm_refl s
  · have hfiles : "files" ∉ (Operation.record a s.workspace.clock).writes := by
      simp [Operation.writes]
    exact calm_commit s (Operation.get?_applyAll_ne hfiles s.ranking s.workspace.state
      s.workspace.tree)

theorem calm_suggest (fileKey nodeId : String) : Calm s (s.suggest fileKey nodeId).1 := by
  rw [suggest]
  cases hr : Recommendation.refreshSlot s.ranking s.workspace.state fileKey nodeId
      s.workspace.clock with
  | none => exact calm_refl s
  | some r =>
    refine calm_commit s (Patch.get?_applyAll_ne (fun p hp => ?_) s.workspace.tree)
    rw [← Recommendation.suggest_eq hr] at hp
    exact ⟨"suggestions", by decide, Recommendation.within_suggest _ _ _ _ _ p hp⟩

theorem calm_recordedTactic {fileKey nodeId tactic : String} {s' : Session}
    (h : s.recordedTactic fileKey nodeId tactic = some s') : Calm s s' := by
  unfold recordedTactic at h
  split at h
  · next answers tacticKey _ _ =>
    obtain rfl := Option.some.inj h
    have hrecord := calm_record (s.execute answers ⟨fileKey, nodeId, tactic, tacticKey⟩).1
      (attemptOf ⟨fileKey, nodeId, tactic, tacticKey⟩
        (Recommendation.category? s.workspace.state fileKey nodeId)
        (s.execute answers ⟨fileKey, nodeId, tactic, tacticKey⟩).2)
    exact ⟨⟨hrecord.quiet.scheduler, hrecord.quiet.log, hrecord.quiet.files⟩,
      hrecord.scheduling⟩
  · cases h

end Quiet

-- ── The course of steps ───────────────────────────────────────────────────────

section Steps

variable {settings : SchedulerSettings} {start : Timeline Workspace} {ms : List Moment}
  {s : Session}

theorem course_sync (h : Course settings start ms s.timeline) (hs : s.scheduling = settings)
    (r : SyncRequest) :
    Course settings start (ms ++ s.momentsSyncing r) (s.sync r).timeline ∧
      (s.sync r).scheduling = settings := by
  subst hs
  have hawait := (h.moment (.schedule r)).await
    (s.timeline.schedule s.scheduling Workspace.worker r).scheduler.requests
    (s.timeline.schedule s.scheduling Workspace.worker r).workload
  rw [List.append_assoc] at hawait
  exact ⟨hawait, rfl⟩

/-- A step in which nothing is synced has no moments. -/
theorem course_calm (h : Course settings start ms s.timeline) (hs : s.scheduling = settings)
    {s' : Session} (hcalm : Calm s s') :
    Course settings start (ms ++ []) s'.timeline ∧ s'.scheduling = settings := by
  rw [List.append_nil]
  exact ⟨h.pause hcalm.quiet, hcalm.scheduling.trans hs⟩

/-- A course goes on with a step of the session. -/
theorem course_step (h : Course settings start ms s.timeline) (hs : s.scheduling = settings)
    (x : Step) :
    Course settings start (ms ++ s.moments x) (s.step x).timeline ∧
      (s.step x).scheduling = settings := by
  cases x with
  | schedule r => exact ⟨hs ▸ h.moment (.schedule r), hs⟩
  | sync r => exact course_sync h hs r
  | advance time =>
    subst hs
    exact ⟨h.advance time, rfl⟩
  | shutdown => exact ⟨hs ▸ h.moment .clear, hs⟩
  | applyTactic fileKey nodeId tactic =>
    rw [step_applyTactic, moments]
    cases hrecorded : s.recordedTactic fileKey nodeId tactic with
    | none =>
      rw [Option.map_none, Option.getD_none, List.append_nil]
      exact ⟨h, hs⟩
    | some recorded =>
      have hcalm := calm_recordedTactic s hrecorded
      exact course_sync (h.pause hcalm.quiet) (hcalm.scheduling.trans hs) (applyRequest fileKey)
  | record a => exact course_calm h hs (calm_record s a)
  | suggest fileKey nodeId => exact course_calm h hs (calm_suggest s fileKey nodeId)
  | contexts payloads => exact course_calm h hs ⟨⟨rfl, rfl, rfl⟩, rfl⟩
  | hints payloads => exact course_calm h hs ⟨⟨rfl, rfl, rfl⟩, rfl⟩
  | clock now => exact course_calm h hs ⟨⟨rfl, rfl, rfl⟩, rfl⟩

/-- A course goes on with any steps of the session. -/
theorem course_steps (h : Course settings start ms s.timeline) (hs : s.scheduling = settings)
    (steps : List Step) :
    Course settings start (ms ++ s.chronicle steps) (s.run steps).timeline := by
  induction steps generalizing s ms with
  | nil =>
    rw [chronicle, List.append_nil]
    exact h
  | cons x rest ih =>
    obtain ⟨hcourse, hsettings⟩ := course_step h hs x
    rw [chronicle, ← List.append_assoc]
    exact ih hcourse hsettings

/-- A session passes through the moments of its chronicle. -/
theorem course_run (s : Session) (steps : List Step) :
    Course s.scheduling s.timeline (s.chronicle steps) (s.run steps).timeline :=
  course_steps .begun rfl steps

end Steps

end Session

end ProofLedger
