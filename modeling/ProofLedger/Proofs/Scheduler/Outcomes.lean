import ProofLedger.Proofs.Scheduler.Chronicle

/-!
# How work ends makes no difference

The scheduler is told how a run or a task ended, but nothing that it does depends on it. So a
timeline in which runs and tasks fail or panic is the timeline in which all of them end well, but
for the outcomes that its log and its agenda name: `calm` takes those out, and every step of a
script commutes with it (`step_calm`).
-/

namespace ProofLedger

-- ── Outcomes taken out ────────────────────────────────────────────────────────

/-- Work of the same length that ends well. -/
def Work.calm (w : Work) : Work := { w with outcome := .ok }

namespace Scheduler.Event

/-- An event without the outcome that it tells. -/
def calm : Event → Event
  | .runEnded key epoch _ => .runEnded key epoch .ok
  | .taskEnded key epoch n _ => .taskEnded key epoch n .ok
  | e => e

/-- An event that tells no outcome is the same without it. -/
theorem calm_eq_timer_iff {e : Event} {key : String} {token : Nat} :
    e.calm = .timer key token ↔ e = .timer key token := by
  cases e <;> simp [calm]

end Scheduler.Event

/-- What is observed, without the outcome that it names. -/
def Happening.calm : Happening → Happening
  | .ended key _ => .ended key .ok
  | h => h

namespace Script

/-- The script in which everything lasts as long and ends well. -/
def calm (s : Script) : Script where
  runs := s.runs.filterMap fun works => some (works.map Work.calm)
  tasks := s.tasks.map fun x => (x.1, x.2.calm)

/-- A step whose task lasts as long and ends well. -/
def Step.calm : Step → Step
  | .schedule r task => .schedule r (task.map Work.calm)
  | x => x

end Script

/-- What happened and when, without the outcomes. -/
def calmLog (log : List (Nat × Happening)) : List (Nat × Happening) :=
  log.map fun x => (x.1, x.2.calm)

/-- What is planned and when, without the outcomes. -/
def calmAgenda (a : Agenda Scheduler.Event) : Agenda Scheduler.Event :=
  a.map fun x => (x.1, x.2.calm)

/-- A timeline without the outcomes. -/
def Timeline.calm (t : Timeline Script) : Timeline Script :=
  { t with world := t.world.calm, agenda := calmAgenda t.agenda, log := calmLog t.log }

-- ── Agendas and logs ──────────────────────────────────────────────────────────

/-- An agenda is calmed with what is entered into it. -/
theorem calmAgenda_enter (due : Nat) (e : Scheduler.Event) (a : Agenda Scheduler.Event) :
    calmAgenda (a.enter due e) = (calmAgenda a).enter due e.calm := by
  induction a with
  | nil => rfl
  | cons head rest ih =>
    show calmAgenda (if head.1 ≤ due then _ else _) = if head.1 ≤ due then _ else _
    by_cases h : head.1 ≤ due
    · rw [if_pos h, if_pos h]
      exact congrArg ((head.1, head.2.calm) :: ·) ih
    · rw [if_neg h, if_neg h]
      rfl

/-- A calmed agenda drops the same timers. -/
theorem calmAgenda_drop (key : String) (token : Nat) (a : Agenda Scheduler.Event) :
    calmAgenda (a.drop (.timer key token)) = (calmAgenda a).drop (.timer key token) := by
  unfold calmAgenda Agenda.drop
  rw [List.filter_map]
  refine congrArg _ (List.filter_congr fun x _ => ?_)
  exact decide_eq_decide.mpr (not_congr Scheduler.Event.calm_eq_timer_iff).symm

theorem calmLog_concat (log : List (Nat × Happening)) (time : Nat) (h : Happening) :
    calmLog (log ++ [(time, h)]) = calmLog log ++ [(time, h.calm)] := List.map_append

-- ── Work ──────────────────────────────────────────────────────────────────────

namespace Script

/-- A calm run takes as long. -/
theorem takeRun_calm (s : Script) (key : String) :
    s.calm.takeRun key =
      { s.takeRun key with world := (s.takeRun key).world.calm, outcome := .ok } := by
  have hget : s.calm.runs.get? key = (s.runs.get? key).map (List.map Work.calm) := by
    show (s.runs.filterMap _).get? key = _
    rw [Table.get?_filterMap]
    cases s.runs.get? key <;> rfl
  unfold takeRun
  rw [hget]
  cases hruns : s.runs.get? key with
  | none => rfl
  | some works =>
    cases works with
    | nil => rfl
    | cons work rest =>
      have hinsert : s.calm.runs.insert key (rest.map Work.calm) =
          (s.runs.insert key rest).filterMap fun works => some (works.map Work.calm) := by
        refine Table.ext_get? fun other => ?_
        rw [Table.get?_filterMap]
        by_cases hk : key = other
        · subst hk
          rw [Table.get?_insert_self, Table.get?_insert_self]
          rfl
        · rw [Table.get?_insert_ne _ hk, Table.get?_insert_ne _ hk]
          exact Table.get?_filterMap _ _ _
      show Execution.mk { s.calm with runs := s.calm.runs.insert key (rest.map Work.calm) }
        work.ms .ok = _
      rw [hinsert]
      rfl

/-- A calm task takes as long. -/
theorem takeTask_calm (s : Script) (n : Nat) :
    s.calm.takeTask n =
      { s.takeTask n with world := (s.takeTask n).world.calm, outcome := .ok } := by
  have hlookup : s.calm.tasks.lookup n = (s.tasks.lookup n).map Work.calm := by
    show (s.tasks.map _).lookup n = _
    induction s.tasks with
    | nil => rfl
    | cons x rest ih =>
      rw [List.map_cons, List.lookup_cons, List.lookup_cons, ih]
      cases n == x.1 <;> rfl
  unfold takeTask
  rw [hlookup]
  cases s.tasks.lookup n <;> rfl

end Script

-- ── Events ────────────────────────────────────────────────────────────────────

namespace Timeline

open Scheduler
open Script (worker)

variable {settings : SchedulerSettings}

/-- What happens later happens calmly at the same time. -/
theorem later_calm (t : Timeline Script) (ms : Nat) (e : Event) :
    t.calm.later ms e.calm = (t.later ms e).calm :=
  congrArg (fun agenda => { t.calm with agenda })
    (calmAgenda_enter (t.now + ms) e t.agenda).symm

/-- What is observed of a calm timeline is calm. -/
theorem note_calm (t : Timeline Script) (h : Happening) :
    t.calm.note h.calm = (t.note h).calm :=
  congrArg (fun log => { t.calm with log }) (calmLog_concat t.log t.now h).symm

/-- Effects name no outcomes; those of the work that they start are taken out. -/
theorem perform_calm (t : Timeline Script) (f : Effect) :
    perform worker t.calm f = (perform worker t f).calm := by
  cases f with
  | arm key token ms => exact later_calm t ms (.timer key token)
  | disarm key token =>
    exact congrArg (fun agenda => { t.calm with agenda })
      (calmAgenda_drop key token t.agenda).symm
  | startRun key epoch reason =>
    have htake := Script.takeRun_calm t.world key
    show ({ t.calm.note (.started key reason) with
      world := (t.calm.world.takeRun key).world }).later (t.calm.world.takeRun key).ms
        (.runEnded key epoch (t.calm.world.takeRun key).outcome) = _
    rw [show t.calm.world = t.world.calm from rfl, htake,
      show t.calm.note (.started key reason) = (t.note (.started key reason)).calm from
        note_calm t (.started key reason)]
    exact later_calm { t.note (.started key reason) with world := (t.world.takeRun key).world }
      (t.world.takeRun key).ms (.runEnded key epoch (t.world.takeRun key).outcome)
  | startTask key epoch n =>
    have htake := Script.takeTask_calm t.world n
    show ({ t.calm.note (.taskStarted key n) with
      world := (t.calm.world.takeTask n).world }).later (t.calm.world.takeTask n).ms
        (.taskEnded key epoch n (t.calm.world.takeTask n).outcome) = _
    rw [show t.calm.world = t.world.calm from rfl, htake,
      show t.calm.note (.taskStarted key n) = (t.note (.taskStarted key n)).calm from
        note_calm t (.taskStarted key n)]
    exact later_calm { t.note (.taskStarted key n) with world := (t.world.takeTask n).world }
      (t.world.takeTask n).ms (.taskEnded key epoch n (t.world.takeTask n).outcome)
  | resolve n => exact note_calm t (.resolved n)

/-- Effects can be performed calmly. -/
theorem foldl_perform_calm (t : Timeline Script) (effects : List Effect) :
    effects.foldl (perform worker) t.calm = (effects.foldl (perform worker) t).calm := by
  induction effects generalizing t with
  | nil => rfl
  | cons f rest ih => rw [List.foldl_cons, List.foldl_cons, perform_calm, ih]

/-- What is observed of a calm event is calm. -/
theorem observed_calm (t : Timeline Script) (e : Event) :
    t.calm.observed e.calm = (t.observed e).calm := by
  cases e with
  | runEnded key epoch outcome => exact note_calm t (.ended key outcome)
  | _ => rfl

/-- The scheduler does the same whatever outcome it is told. -/
theorem scheduler_step_calm (s : Scheduler) (e : Event) :
    s.step settings e.calm = s.step settings e := by
  cases e <;> rfl

/-- A calm timeline is told calm events. -/
theorem tell_calm (settings : SchedulerSettings) (t : Timeline Script) (e : Event) :
    tell settings worker t.calm e.calm = (tell settings worker t e).calm := by
  show ((t.scheduler.step settings e.calm).2).foldl (perform worker)
    { t.calm.observed e.calm with scheduler := (t.scheduler.step settings e.calm).1 } = _
  rw [scheduler_step_calm, observed_calm]
  exact foldl_perform_calm
    { t.observed e with scheduler := (t.scheduler.step settings e).1 } _

-- ── The clock ─────────────────────────────────────────────────────────────────

/-- As much is left to do. -/
theorem workload_calm (t : Timeline Script) : t.calm.workload = t.workload := by
  show (calmAgenda t.agenda).length + _ + _ = _
  rw [calmAgenda, List.length_map]
  rfl

/-- The same is due next. -/
theorem next?_calm (deadline : Nat) (t : Timeline Script) :
    t.calm.next? settings worker deadline =
      (t.next? settings worker deadline).map Timeline.calm := by
  obtain ⟨world, scheduler, now, agenda, log⟩ := t
  cases agenda with
  | nil => rfl
  | cons head rest =>
    obtain ⟨due, e⟩ := head
    by_cases h : due ≤ deadline
    · have hhead : ∀ e rest, Agenda.next? deadline ((due, e) :: rest : Agenda Event) =
          some ((due, e), rest) := fun _ _ => if_pos h
      show (Agenda.next? deadline ((due, e.calm) :: calmAgenda rest)).map _ =
        ((Agenda.next? deadline ((due, e) :: rest)).map _).map _
      rw [hhead, hhead]
      exact congrArg some (tell_calm settings
        { world, scheduler, now := max now due, agenda := rest, log } e)
    · have hhead : ∀ e rest, Agenda.next? deadline ((due, e) :: rest : Agenda Event) = none :=
        fun _ _ => if_neg h
      show (Agenda.next? deadline ((due, e.calm) :: calmAgenda rest)).map _ =
        ((Agenda.next? deadline ((due, e) :: rest)).map _).map _
      rw [hhead, hhead]
      rfl

/-- A calm timeline goes on as the other does. -/
theorem runUntil_calm (deadline fuel : Nat) (t : Timeline Script) :
    runUntil settings worker deadline fuel t.calm =
      (runUntil settings worker deadline fuel t).calm := by
  induction fuel generalizing t with
  | zero => rfl
  | succ fuel ih =>
    rw [runUntil, runUntil, next?_calm]
    cases t.next? settings worker deadline with
    | none => rfl
    | some t' => exact ih t'

/-- A calm timeline goes on as the other does, for any time. -/
theorem advance_calm (ms : Nat) (t : Timeline Script) :
    advance settings worker ms t.calm = (advance settings worker ms t).calm := by
  unfold advance
  rw [workload_calm, show t.calm.now = t.now from rfl, runUntil_calm]
  rfl

end Timeline

-- ── Scripts ───────────────────────────────────────────────────────────────────

namespace Script

open Timeline

variable (settings : SchedulerSettings)

/-- A step of a timeline is, without outcomes, the step of the timeline without outcomes. -/
theorem step_calm (t : Timeline Script) (x : Step) :
    step settings t.calm x.calm = (step settings t x).calm := by
  cases x with
  | schedule r task =>
    have hworld : ∀ world : Script, ({ t with world } : Timeline Script).calm =
        { t.calm with world := world.calm } := fun _ => rfl
    cases task with
    | none =>
      exact tell_calm settings t (.schedule { r with hasTask := false })
    | some work =>
      show tell settings worker
        { t.calm with world := { t.world.calm with
          tasks := t.world.calm.tasks ++ [(t.scheduler.requests + 1, work.calm)] } }
        (.schedule { r with hasTask := true }) = _
      have htasks : ({ t.world.calm with
          tasks := t.world.calm.tasks ++ [(t.scheduler.requests + 1, work.calm)] } : Script) =
          ({ t.world with
            tasks := t.world.tasks ++ [(t.scheduler.requests + 1, work)] } : Script).calm := by
        show Script.mk _ _ = Script.mk _ (List.map _ (_ ++ _))
        rw [List.map_append]
        rfl
      rw [htasks, ← hworld]
      exact tell_calm settings
        { t with world := { t.world with
          tasks := t.world.tasks ++ [(t.scheduler.requests + 1, work)] } }
        (.schedule { r with hasTask := true })
  | advance ms => exact advance_calm ms t
  | clear => exact tell_calm settings t .clear

/-- Calm steps lead to a calm timeline. -/
theorem foldl_step_calm (t : Timeline Script) (steps : List Step) :
    (steps.map Step.calm).foldl (step settings) t.calm = (steps.foldl (step settings) t).calm := by
  induction steps generalizing t with
  | nil => rfl
  | cons x rest ih => rw [List.map_cons, List.foldl_cons, List.foldl_cons, step_calm, ih]

/-- Calm steps lead from the start to a calm timeline. -/
theorem after_calm (script : Script) (steps : List Step) :
    after settings script.calm (steps.map Step.calm) = (after settings script steps).calm :=
  foldl_step_calm settings { world := script } steps

/-- Failures are isolated. Let runs and tasks fail or panic as they will: after every step, what
    has been started, ended and resolved, and when, is what it would be if all of them ended well,
    and so are the phase of every key and the number of keys that are not idle. -/
theorem failures_isolated (script : Script) (steps : List Step) (n : Nat) :
    let mixed := after settings script (steps.take n)
    let well := after settings script.calm ((steps.map Step.calm).take n)
    calmLog mixed.log = well.log ∧ mixed.now = well.now ∧
      (∀ key, mixed.scheduler.phase key = well.scheduler.phase key) ∧
      mixed.scheduler.activeKeys = well.scheduler.activeKeys := by
  intro mixed well
  have hwell : well = mixed.calm := by
    show after settings script.calm ((steps.map Step.calm).take n) = _
    rw [← List.map_take]
    exact after_calm settings script (steps.take n)
  rw [hwell]
  exact ⟨rfl, rfl, fun _ => rfl, rfl⟩

end Script

end ProofLedger
