import ProofLedger.Proofs.Scheduler.Clock

/-!
# The chronicle of a scripted timeline

Advancing the clock lets everything happen that is due: each event that is told lessens the work
that remains (`Clocked.workload_tell`), so the bound on the number of events is never reached. A
timeline that follows a script therefore keeps to its times through all its steps, and its log is
what is seen of the events of its chronicle (`kept_after`).
-/

namespace ProofLedger

open Scheduler

-- ── The work that remains ─────────────────────────────────────────────────────

namespace Scheduler

variable {settings : SchedulerSettings}

/-- The events that an entry can still lead to. -/
def Entry.workload (e : Entry) : Nat := 3 * e.waiters.length + e.tasks.length

/-- The events that a run can still lead to. -/
def Run.workload (r : Run) : Nat := r.tasks.length + 1

/-- What a key is still to do lessens by an event, its new plans included. -/
theorem Change.workload {s : Scheduler} {key : String} {event : Event} {e e' : Option Entry}
    {f f' : Option Run} {effects : List Effect}
    (h : Change settings s key event e f e' f' effects) (hstanding : Standing e f)
    (hheeds : s.Heeds event) (hevent : ∀ r, event ≠ .schedule r) :
    effects.countP Effect.plans + share Entry.workload Run.workload e' f' ≤
      share Entry.workload Run.workload e f := by
  have hresolve : ∀ numbers : List Nat, (numbers.map Effect.resolve).countP Effect.plans = 0 := by
    intro numbers
    rw [List.countP_eq_zero]
    intro effect hmem
    obtain ⟨n, _, rfl⟩ := List.mem_map.mp hmem
    exact Bool.false_ne_true
  cases h with
  | opened r | rearmed r | queued r => exact absurd rfl (hevent r)
  | @fired e =>
    cases hstanding with
    | debouncing _ _ hwaiters =>
      have hlength := List.length_pos_iff.mpr hwaiters
      show 1 + ((3 * 0 + 0) + (e.tasks.length + 1)) ≤ (3 * e.waiters.length + e.tasks.length) + 0
      omega
  | @nextTask e r n rest outcome hkey htasks =>
    show 1 + (e.workload + (rest.length + 1)) ≤ e.workload + (r.tasks.length + 1)
    rw [htasks, List.length_cons]
    omega
  | ended =>
    rw [hresolve]
    exact Nat.zero_le _
  | @followed e r =>
    show (Effect.arm _ _ _ :: r.waiters.map .resolve).countP Effect.plans + (e.workload + 0) ≤
      e.workload + (r.tasks.length + 1)
    rw [List.countP_cons_of_pos rfl, hresolve]
    omega
  | ignored hstale => exact absurd hheeds hstale

end Scheduler

namespace Timeline

variable {World : Type} {settings : SchedulerSettings} (w : Worker World)

theorem workload_eq (t : Timeline World) :
    t.workload = t.agenda.length + total Entry.workload Run.workload t.scheduler := by
  have hentries : ∀ (entries : List Entry) (n : Nat),
      entries.foldl (fun n e => n + 3 * e.waiters.length + e.tasks.length) n =
        n + (entries.map Entry.workload).sum := by
    intro entries
    induction entries with
    | nil => exact fun n => rfl
    | cons e rest ih =>
      intro n
      rw [List.foldl_cons, ih, List.map_cons, List.sum_cons, Entry.workload]
      omega
  have hruns : ∀ (runs : List Run) (n : Nat),
      runs.foldl (fun n r => n + r.tasks.length + 1) n = n + (runs.map Run.workload).sum := by
    intro runs
    induction runs with
    | nil => exact fun n => rfl
    | cons r rest ih =>
      intro n
      rw [List.foldl_cons, ih, List.map_cons, List.sum_cons, Run.workload]
      omega
  rw [workload, total, hentries, hruns]
  omega

theorem length_perform (t : Timeline World) (f : Effect) :
    (perform w t f).agenda.length ≤ [f].countP Effect.plans + t.agenda.length := by
  cases f with
  | arm | startRun | startTask =>
    exact Nat.le_of_eq ((Agenda.length_enter _ _ _).trans (Nat.add_comm _ _))
  | disarm => exact Nat.le_trans (List.length_filter_le _ _) (Nat.le_add_left _ _)
  | resolve => exact Nat.le_add_left _ _

theorem length_foldl (t : Timeline World) (effects : List Effect) :
    (effects.foldl (perform w) t).agenda.length ≤
      effects.countP Effect.plans + t.agenda.length := by
  induction effects generalizing t with
  | nil => exact Nat.le_add_left _ _
  | cons f rest ih =>
    have hrest := ih (perform w t f)
    have hfirst := length_perform w t f
    have hcount : (f :: rest).countP Effect.plans =
        [f].countP Effect.plans + rest.countP Effect.plans := by
      rw [← List.countP_append]
      rfl
    rw [List.foldl_cons, hcount]
    omega

/-- What is due is about a key. -/
theorem Clocked.key_due {t : Timeline World} {history : List (Nat × Event)} {time : Nat}
    {e : Event} {rest : Agenda Event} (h : Clocked settings t history)
    (hagenda : t.agenda = (time, e) :: rest) : ∃ key, e.key? = some key :=
  Event.exists_key (h.upcoming _ (hagenda ▸ List.mem_cons_self)).2

/-- What is due is no request. -/
theorem Clocked.event_due {t : Timeline World} {history : List (Nat × Event)} {time : Nat}
    {e : Event} {rest : Agenda Event} (h : Clocked settings t history)
    (hagenda : t.agenda = (time, e) :: rest) (r : SyncRequest) : e ≠ .schedule r := by
  obtain ⟨key, hkey⟩ := h.key_due hagenda
  refine (h.plans key).ne_schedule (x := (time, e)) ?_ r
  rw [hagenda, plansOf_cons, if_pos hkey]
  exact List.mem_cons_self

/-- What is told because it is due lessens the work that remains. -/
theorem Clocked.workload_tell {t : Timeline World} {history : List (Nat × Event)} {time : Nat}
    {e : Event} {rest : Agenda Event} (h : Clocked settings t history)
    (hagenda : t.agenda = (time, e) :: rest) :
    (Timeline.tell settings w { t with now := time, agenda := rest } e).workload < t.workload := by
  have hs := h.sound
  have hmove := step_move settings hs e
  have hcall := Calls.due hagenda
  have hheeds := h.heeds hcall
  obtain ⟨key, hkey⟩ := h.key_due hagenda
  have hchange :=
    (hmove.change hs hkey).workload (hs.standing key) hheeds (h.event_due hagenda)
  have hlength : (Timeline.tell settings w { t with now := time, agenda := rest } e).agenda.length ≤
      (t.scheduler.step settings e).2.countP Effect.plans + rest.length := by
    refine (length_foldl w _ _).trans (Nat.add_le_add_left (Nat.le_of_eq ?_) _)
    exact congrArg List.length (agenda_observed _ e)
  rw [workload_eq, workload_eq, scheduler_tell, hmove.total_eq hs hkey, hs.total_eq key, hagenda,
    List.length_cons]
  omega

-- ── Advancing ─────────────────────────────────────────────────────────────────

/-- The events that happen while the clock is moved on, with their times: those that `runUntil`
    tells. -/
def toldUntil (settings : SchedulerSettings) (w : Worker World) (deadline : Nat) :
    Nat → Timeline World → List (Nat × Event)
  | 0, _ => []
  | fuel + 1, t =>
    match t.agenda.next? deadline with
    | some ((due, e), rest) =>
      (max t.now due, e) :: toldUntil settings w deadline fuel
        (tell settings w { t with now := max t.now due, agenda := rest } e)
    | none => []

/-- The request that an event brings, with its time. -/
def request? : Nat × Event → Option (Nat × SyncRequest)
  | (time, .schedule r) => some (time, r)
  | _ => none

/-- The requests that are seen, with their times. -/
def registrations (j : List (Nat × Sighting)) : List (Nat × SyncRequest) :=
  j.filterMap fun x => x.2.registered?.map fun y => (x.1, y.2)

/-- Only a request is registered. -/
theorem registrations_seen (time number : Nat) (e : Event) (effects : List Effect) :
    registrations ((seen number e effects).map (Prod.mk time)) = (request? (time, e)).toList := by
  have hnone : ∀ σs : List Sighting, (∀ σ ∈ σs, σ.registered? = none) →
      registrations (σs.map (Prod.mk time)) = [] := by
    intro σs hσs
    refine List.filterMap_eq_nil_iff.mpr fun x hx => ?_
    obtain ⟨σ, hσ, rfl⟩ := List.mem_map.mp hx
    rw [hσs σ hσ]
    rfl
  have honward : ∀ key, (onward key effects).registered? = none := by
    intro key
    unfold onward
    split <;> rfl
  have hpair : ∀ σ τ : Sighting, σ.registered? = none → τ.registered? = none →
      registrations ([σ, τ].map (Prod.mk time)) = [] := by
    refine fun σ τ hσ hτ => hnone _ fun υ hυ => ?_
    rcases List.mem_pair.mp hυ with rfl | rfl
    · exact hσ
    · exact hτ
  cases e with
  | schedule | clear => rfl
  | timer key token =>
    refine hnone _ fun σ hσ => ?_
    obtain ⟨effect, _, h⟩ := List.mem_filterMap.mp hσ
    cases effect <;> cases h
    rfl
  | runEnded key epoch outcome =>
    cases effects with
    | nil => rfl
    | cons => exact hpair _ _ rfl (honward key)
  | taskEnded key epoch n outcome =>
    cases effects with
    | nil => rfl
    | cons => exact hpair _ _ rfl (honward key)

theorem registrations_timed (s : Scheduler) (history : List (Nat × Event)) :
    registrations (timed settings s history) = history.filterMap request? := by
  induction history generalizing s with
  | nil => rfl
  | cons x rest ih =>
    obtain ⟨time, e⟩ := x
    rw [timed, registrations, List.filterMap_append]
    refine (congrArg₂ (· ++ ·) (registrations_seen time _ e _) (ih _)).trans ?_
    cases h : request? (time, e) <;> simp [h]

theorem next?_eq_some {α : Type} {deadline : Nat} {a : Agenda α} {x : Nat × α} {rest : Agenda α}
    (h : a.next? deadline = some (x, rest)) : a = x :: rest ∧ x.1 ≤ deadline := by
  cases a with
  | nil => cases h
  | cons head tail =>
    rw [Agenda.next?] at h
    split at h
    · next hle =>
      cases h
      exact ⟨rfl, hle⟩
    · cases h

/-- All that is due by a time happens at its time. -/
theorem Clocked.runUntil (deadline fuel : Nat) {t : Timeline World}
    {history : List (Nat × Event)} (h : Clocked settings t history)
    (hfuel : t.workload ≤ fuel) (hnow : t.now ≤ deadline) :
    Clocked settings (runUntil settings w deadline fuel t)
        (history ++ toldUntil settings w deadline fuel t) ∧
      (Timeline.runUntil settings w deadline fuel t).agenda.next? deadline = none ∧
      (toldUntil settings w deadline fuel t).filterMap request? = [] := by
  induction fuel generalizing t history with
  | zero =>
    rw [workload_eq] at hfuel
    have hempty : t.agenda = [] := List.length_eq_zero_iff.mp (by omega)
    refine ⟨?_, ?_, rfl⟩
    · rw [toldUntil, List.append_nil]
      exact h
    · rw [Timeline.runUntil, hempty]
      rfl
  | succ fuel ih =>
    cases hnext : t.agenda.next? deadline with
    | none =>
      rw [Timeline.runUntil, toldUntil, next?, hnext]
      refine ⟨?_, hnext, rfl⟩
      rw [List.append_nil]
      exact h
    | some x =>
      obtain ⟨⟨due, e⟩, rest⟩ := x
      obtain ⟨hagenda, hdue⟩ := next?_eq_some hnext
      have hmax : max t.now due = due :=
        Nat.max_eq_right (h.upcoming _ (hagenda ▸ List.mem_cons_self)).1
      have hless := h.workload_tell w hagenda
      have hstep := ih (h.tell (.due hagenda) w) (by omega) (by rw [now_tell]; exact hdue)
      rw [Timeline.runUntil, toldUntil, next?, hnext]
      simp only [Option.map_some, hmax]
      rw [List.append_assoc] at hstep
      have hrequest : request? (due, e) = none := by
        cases e with
        | schedule r => exact absurd rfl (h.event_due hagenda r)
        | _ => rfl
      rw [List.filterMap_cons_none hrequest]
      exact hstep

/-- Once the clock has been moved on nothing is overdue. -/
theorem Clocked.advance {t : Timeline World} {history : List (Nat × Event)}
    (h : Clocked settings t history) (ms : Nat) :
    Clocked settings (Timeline.advance settings w ms t)
      (history ++ toldUntil settings w (t.now + ms) t.workload t) := by
  obtain ⟨hclocked, hnone, _⟩ :=
    h.runUntil w (t.now + ms) t.workload (Nat.le_refl _) (Nat.le_add_right _ _)
  exact
    { scheduler := hclocked.scheduler
      ordered := hclocked.ordered
      upcoming := fun x hx =>
        ⟨Nat.le_of_lt (hclocked.ordered.lt_of_next? hnone hx), (hclocked.upcoming x hx).2⟩
      plans := hclocked.plans
      punctual := hclocked.punctual
      logged := hclocked.logged }

end Timeline

-- ── Scripts ───────────────────────────────────────────────────────────────────

namespace Script

open Timeline

variable {settings : SchedulerSettings}

/-- The events that a step tells the scheduler, with their times. -/
def told (settings : SchedulerSettings) (t : Timeline Script) : Step → List (Nat × Event)
  | .schedule r task => [(t.now, .schedule { r with hasTask := task.isSome })]
  | .advance ms => toldUntil settings worker (t.now + ms) t.workload t
  | .clear => [(t.now, .clear)]

/-- The events of the steps of a timeline. -/
def chronicle (settings : SchedulerSettings) : Timeline Script → List Step → List (Nat × Event)
  | _, [] => []
  | t, x :: rest => told settings t x ++ chronicle settings (step settings t x) rest

theorem clocked_step {t : Timeline Script} {history : List (Nat × Event)}
    (h : Clocked settings t history) (x : Step) :
    Clocked settings (step settings t x) (history ++ told settings t x) := by
  cases x with
  | schedule r task => exact (h.withWorld _).tell (.request _) worker
  | advance ms => exact h.advance worker ms
  | clear => exact h.tell .clear worker

theorem clocked_steps {t : Timeline Script} {history : List (Nat × Event)}
    (h : Clocked settings t history) (steps : List Step) :
    Clocked settings (steps.foldl (step settings) t) (history ++ chronicle settings t steps) := by
  induction steps generalizing t history with
  | nil =>
    rw [chronicle, List.append_nil]
    exact h
  | cons x rest ih =>
    rw [chronicle, ← List.append_assoc]
    exact ih (clocked_step h x)

/-- The requests of steps, with their times. -/
def requested : Nat → List Step → List (Nat × SyncRequest)
  | _, [] => []
  | now, .schedule r task :: rest =>
    (now, { r with hasTask := task.isSome }) :: requested now rest
  | now, .advance ms :: rest => requested (now + ms) rest
  | now, .clear :: rest => requested now rest

/-- The chronicle brings the requests of the steps at their times, and no others. -/
theorem requests_chronicle {t : Timeline Script} {history : List (Nat × Event)}
    (h : Clocked settings t history) (steps : List Step) :
    (chronicle settings t steps).filterMap request? = requested t.now steps := by
  induction steps generalizing t history with
  | nil => rfl
  | cons x rest ih =>
    have hrest := ih (clocked_step h x)
    rw [chronicle, List.filterMap_append, hrest]
    cases x with
    | schedule r task =>
      have hnow : (step settings t (.schedule r task)).now = t.now := now_tell _ _ _ _
      rw [hnow]
      rfl
    | advance ms =>
      obtain ⟨_, _, hnone⟩ :=
        h.runUntil worker (t.now + ms) t.workload (Nat.le_refl _) (Nat.le_add_right _ _)
      rw [told, hnone]
      rfl
    | clear =>
      have hnow : (step settings t .clear).now = t.now := now_tell settings worker t .clear
      rw [hnow]
      rfl

-- ── A script and its steps ────────────────────────────────────────────────────

/-- The timeline after steps. -/
def after (settings : SchedulerSettings) (script : Script) (steps : List Step) :
    Timeline Script := steps.foldl (step settings) { world := script }

/-- What is seen in the course of steps, with the times. -/
def sightings (settings : SchedulerSettings) (script : Script) (steps : List Step) :
    List (Nat × Sighting) := timed settings {} (chronicle settings { world := script } steps)

/-- What holds of the steps of a script. -/
structure Kept (settings : SchedulerSettings) (script : Script) (steps : List Step) : Prop where
  /-- what is seen is what the log of the timeline notes -/
  logged : (after settings script steps).log =
    (sightings settings script steps).flatMap fun x => x.2.happenings.map (Prod.mk x.1)
  /-- the requests that are seen are those of the steps, at their times -/
  requested : registrations (sightings settings script steps) = requested 0 steps
  /-- the requests of a key fall into the blocks of its runs -/
  batched : ∀ key, Batched key (after settings script steps).scheduler
    ((sightings settings script steps).map (·.2))
  /-- there are no more runs of a key than requests -/
  runs_le : ∀ key, (blocks key ((sightings settings script steps).map (·.2))).length ≤
    (requestsOf key ((sightings settings script steps).map (·.2))).length
  /-- a run starts for the reason of the last request of its block and exactly when the delay of
      this request is over -/
  punctual : ∀ (before rest : List (Nat × Sighting)) (time : Nat) (key : String)
    (reason : SyncReason),
    sightings settings script steps = before ++ (time, .started key reason) :: rest →
    waiting key (before.map (·.2)) ∈ blocks key ((sightings settings script steps).map (·.2)) ∧
    ∃ n r base, (waiting key (before.map (·.2))).getLast? = some (n, r) ∧ reason = r.reason ∧
      Base key n r before base ∧
      (time : Int) =
        base + max 0 (r.overrideMs.getD (min (settings.delayMs r.reason : Int) (2 ^ 63 - 1)))
  /-- while no run of a key is in flight the delay of its last request is not over yet -/
  pending : ∀ key n r,
    (waiting key ((sightings settings script steps).map (·.2))).getLast? = some (n, r) →
    ¬ InFlight key ((sightings settings script steps).map (·.2)) →
    ∃ base, Base key n r (sightings settings script steps) base ∧
      ((after settings script steps).now : Int) ≤
        base + max 0 (r.overrideMs.getD (min (settings.delayMs r.reason : Int) (2 ^ 63 - 1)))

theorem delayOf_eq (settings : SchedulerSettings) (r : SyncRequest) :
    (settings.delayOf r.reason r.overrideMs : Int) =
      max 0 (r.overrideMs.getD (min (settings.delayMs r.reason : Int) (2 ^ 63 - 1))) := by
  unfold SchedulerSettings.delayOf
  cases r.overrideMs with
  | none =>
    simp only [SchedulerSettings.maxDelayMs, Option.getD_none]
    omega
  | some ms =>
    simp only [Option.getD_some]
    omega

/-- Whatever the steps, runs take requests in blocks and start on time. -/
theorem kept_after (settings : SchedulerSettings) (script : Script) (steps : List Step) :
    Kept settings script steps := by
  have h : Clocked settings (after settings script steps)
      (chronicle settings { world := script } steps) := by
    have hsteps := clocked_steps (clocked_start settings script) steps
    rw [List.nil_append] at hsteps
    exact hsteps
  have hbatched : ∀ key, Batched key (after settings script steps).scheduler
      ((sightings settings script steps).map (·.2)) := by
    intro key
    rw [h.scheduler, sightings, map_timed]
    exact batched_after settings _ key
  constructor
  case logged => exact h.logged
  case requested =>
    rw [sightings, registrations_timed, requests_chronicle (clocked_start settings script)]
  case batched => exact hbatched
  case runs_le => exact fun key => (hbatched key).runs_le
  case punctual =>
    intro before rest time key reason hj
    obtain ⟨n, r, base, hlast, hreason, hbase, htime⟩ := h.punctual before time key reason rest hj
    refine ⟨?_, n, r, base, hlast, hreason, hbase, ?_⟩
    · rw [hj, List.map_append]
      exact waiting_mem_blocks key _ _ reason
    · rw [← delayOf_eq, htime]
      exact Int.natCast_add _ _
  case pending =>
    intro key n r hlast hidle
    have hplan := h.plans key
    have hcarries := h.recorded.entries key
    have hflight : (after settings script steps).scheduler.flight? key = none := by
      rw [Option.eq_none_iff_forall_ne_some]
      exact fun r hr => hidle ((hbatched key).inFlight_iff.mpr ⟨r, hr⟩)
    have hupcoming : ∀ x ∈ plansOf key (after settings script steps).agenda,
        (after settings script steps).now ≤ x.1 :=
      fun x hx => (h.upcoming x (List.mem_filter.mp hx).1).1
    rw [← map_timed] at hcarries
    rw [hflight] at hplan
    rw [sightings] at hlast
    generalize (after settings script steps).scheduler.entries.get? key = e at hplan hcarries
    generalize plansOf key (after settings script steps).agenda = p at hplan hupcoming
    cases hplan with
    | idle =>
      generalize waiting key _ = requests at hcarries hlast
      cases hcarries
      cases hlast
    | debouncing hlast' hbase =>
      rw [hlast] at hlast'
      cases hlast'
      refine ⟨_, hbase, ?_⟩
      rw [← delayOf_eq, ← Int.natCast_add]
      exact Int.ofNat_le.mpr (hupcoming _ List.mem_cons_self)

end Script

end ProofLedger
