import ProofLedger.Proofs.Scheduler.Agenda
import ProofLedger.Proofs.Scheduler.Batches

/-!
# When runs start

On a virtual clock every event has a time, and so has what is seen of it. The agenda of a timeline
holds what the entries and runs promise and nothing else: the timer of a debouncing key, due when
the delay of its last request is over, and the end of the work of a run in flight (`Clocked`). Every
call of the scheduler keeps this (`Clocked.tell`), so every run starts on time (`Punctual`).
-/

namespace ProofLedger

namespace Scheduler

variable {settings : SchedulerSettings}

-- ── Timed journals ────────────────────────────────────────────────────────────

/-- What is seen of events that come at given times, in order and with the times. -/
def timed (settings : SchedulerSettings) : Scheduler → List (Nat × Event) → List (Nat × Sighting)
  | _, [] => []
  | s, (time, e) :: rest =>
    (seen (s.requests + 1) e (s.step settings e).2).map (Prod.mk time) ++
      timed settings (s.step settings e).1 rest

/-- What is seen of one more event is seen at its time. -/
theorem timed_concat (settings : SchedulerSettings) (s : Scheduler) (history : List (Nat × Event))
    (time : Nat) (e : Event) :
    timed settings s (history ++ [(time, e)]) =
      timed settings s history ++
        (seen ((after settings s (history.map (·.2))).requests + 1) e
          ((after settings s (history.map (·.2))).step settings e).2).map (Prod.mk time) := by
  induction history generalizing s with
  | nil =>
    rw [List.nil_append, timed]
    exact List.append_nil _
  | cons x rest ih =>
    obtain ⟨τ, x⟩ := x
    rw [List.cons_append, timed, timed, ih, List.append_assoc]
    rfl

theorem map_stamped (time : Nat) (seen : List Sighting) :
    (seen.map (Prod.mk time)).map (·.2) = seen := by
  rw [List.map_map]
  exact List.map_id _

/-- Without the times it is the journal of the events. -/
theorem map_timed (s : Scheduler) (history : List (Nat × Event)) :
    (timed settings s history).map (·.2) = journal settings s (history.map (·.2)) := by
  induction history generalizing s with
  | nil => rfl
  | cons x rest ih =>
    obtain ⟨time, x⟩ := x
    rw [timed, List.map_append, ih, map_stamped, List.map_cons, journal]

-- ── When runs are due ─────────────────────────────────────────────────────────

/-- The time from which the delay of a request counts: that of its registration, or, if a run of
    its key was in flight then, that of the end of this run. -/
inductive Base (key : String) (n : Nat) (r : SyncRequest) :
    List (Nat × Sighting) → Nat → Prop where
  | free {before rest : List (Nat × Sighting)} {time : Nat}
    (hfree : ¬ InFlight key (before.map (·.2))) :
    Base key n r (before ++ (time, .registered n r) :: rest) time
  | busy {before during rest : List (Nat × Sighting)} {time done : Nat} {covered : List Nat}
    (hbusy : InFlight key (before.map (·.2))) (hfirst : finishedOf key (during.map (·.2)) = []) :
    Base key n r
      (before ++ (time, .registered n r) :: during ++ (done, .finished key covered) :: rest) done

/-- The request was registered during the run that is in flight. -/
def Queued (key : String) (n : Nat) (r : SyncRequest) (j : List (Nat × Sighting)) : Prop :=
  ∃ before time during, j = before ++ (time, .registered n r) :: during ∧
    InFlight key (before.map (·.2)) ∧ finishedOf key (during.map (·.2)) = []

/-- Every run starts when the delay of the last request that it takes is over, and for the reason
    of that request. -/
def Punctual (settings : SchedulerSettings) (j : List (Nat × Sighting)) : Prop :=
  ∀ before time key reason rest, j = before ++ (time, .started key reason) :: rest →
    ∃ n r base, (waiting key (before.map (·.2))).getLast? = some (n, r) ∧ reason = r.reason ∧
      Base key n r before base ∧ time = base + settings.delayOf r.reason r.overrideMs

/-- What an agenda plans for a key, given its entry and its run in flight. -/
inductive Plan (settings : SchedulerSettings) (key : String) (j : List (Nat × Sighting)) :
    Option Entry → Option Run → Agenda Event → Prop where
  | idle : Plan settings key j none none []
  | debouncing {e : Entry} {n base : Nat} {r : SyncRequest}
    (hlast : (waiting key (j.map (·.2))).getLast? = some (n, r)) (hbase : Base key n r j base) :
    Plan settings key j (some e) none
      [(base + settings.delayOf r.reason r.overrideMs, .timer key e.token)]
  | running {e : Entry} {q : Run} (due : Nat) (outcome : RunOutcome) (hkey : q.key = key)
    (hqueued : ∀ n r, (waiting key (j.map (·.2))).getLast? = some (n, r) → Queued key n r j) :
    Plan settings key j (some e) (some q) [(due, q.awaited outcome)]

/-- A delay goes on to count from the same time. -/
theorem Base.extend {key : String} {n base : Nat} {r : SyncRequest} {j : List (Nat × Sighting)}
    (h : Base key n r j base) (more : List (Nat × Sighting)) : Base key n r (j ++ more) base := by
  cases h with
  | free hfree =>
    rw [List.append_assoc]
    exact .free hfree
  | busy hbusy hfirst =>
    rw [List.append_assoc]
    exact .busy hbusy hfirst

/-- A request stays queued until the run that is in flight ends. -/
theorem Queued.extend {key : String} {n : Nat} {r : SyncRequest} {j more : List (Nat × Sighting)}
    (h : Queued key n r j) (hmore : finishedOf key (more.map (·.2)) = []) :
    Queued key n r (j ++ more) := by
  obtain ⟨before, time, during, rfl, hbusy, hduring⟩ := h
  refine ⟨before, time, during ++ more, by simp, hbusy, ?_⟩
  rw [List.map_append, finishedOf_append, hduring, hmore]
  rfl

/-- The delay counts from the end of the run that was in flight. -/
theorem Queued.finish {key : String} {n : Nat} {r : SyncRequest} {j more : List (Nat × Sighting)}
    (h : Queued key n r j) (hmore : finishedOf key (more.map (·.2)) = []) (done : Nat)
    (covered : List Nat) : Base key n r (j ++ more ++ [(done, .finished key covered)]) done := by
  obtain ⟨before, time, during, hj, hbusy, hduring⟩ := h.extend hmore
  rw [hj]
  exact .busy hbusy hduring

/-- In a longer journal a sighting is the last one, or was there before. -/
theorem split_concat {α : Type} {j before rest : List α} {x y : α}
    (h : j ++ [x] = before ++ y :: rest) :
    (before = j ∧ y = x) ∨ ∃ earlier, j = before ++ y :: earlier := by
  rcases List.eq_nil_or_concat rest with rfl | ⟨earlier, z, rfl⟩
  · obtain ⟨hj, hx⟩ := List.append_inj' h rfl
    exact Or.inl ⟨hj.symm, (List.cons.inj hx).1.symm⟩
  · have hassoc : j ++ [x] = (before ++ y :: earlier) ++ [z] := by simpa using h
    exact Or.inr ⟨earlier, (List.append_inj' hassoc rfl).1⟩

/-- What is seen besides starts of runs is of no account. -/
theorem Punctual.extend {j more : List (Nat × Sighting)} (h : Punctual settings j)
    (hquiet : ∀ x ∈ more, ∀ key, x.2.starts key = false) : Punctual settings (j ++ more) := by
  induction more using List.reverseRecOn with
  | nil =>
    rw [List.append_nil]
    exact h
  | append_singleton more x ih =>
    have hmore := ih fun y hy => hquiet y (List.mem_append_left _ hy)
    intro before time key reason rest heq
    rw [← List.append_assoc] at heq
    rcases split_concat heq with ⟨_, hx⟩ | ⟨earlier, hj⟩
    · have hstarts := hquiet x (by simp) key
      rw [← hx] at hstarts
      simp [Sighting.starts] at hstarts
    · exact hmore before time key reason earlier hj

/-- A run that starts when the delay of the last request is over starts on time. -/
theorem Punctual.start {j : List (Nat × Sighting)} (h : Punctual settings j) {key : String}
    {n base : Nat} {r : SyncRequest} (hlast : (waiting key (j.map (·.2))).getLast? = some (n, r))
    (hbase : Base key n r j base) :
    Punctual settings
      (j ++ [(base + settings.delayOf r.reason r.overrideMs, .started key r.reason)]) := by
  intro before time k reason rest heq
  rcases split_concat heq with ⟨rfl, hx⟩ | ⟨earlier, hj⟩
  · cases hx
    exact ⟨n, r, base, hlast, rfl, hbase, rfl⟩
  · exact h before time k reason earlier hj

-- ── Every call keeps the plans ────────────────────────────────────────────────

/-- No run waits for a request. -/
theorem awaited_ne_schedule (q : Run) (outcome : RunOutcome) (r : SyncRequest) :
    q.awaited outcome ≠ .schedule r := by
  unfold Run.awaited
  cases q.stage <;> exact fun h => nomatch h

/-- Requests come from outside. -/
theorem Plan.ne_schedule {key : String} {j : List (Nat × Sighting)} {e : Option Entry}
    {f : Option Run} {p : Agenda Event} (h : Plan settings key j e f p) {x : Nat × Event}
    (hx : x ∈ p) (r : SyncRequest) : x.2 ≠ .schedule r := by
  cases h with
  | idle => cases hx
  | debouncing =>
    rw [List.mem_singleton.mp hx]
    exact fun he => nomatch he
  | running =>
    rw [List.mem_singleton.mp hx]
    exact awaited_ne_schedule _ _ r

/-- Everything that is planned for a key is still current. -/
theorem Plan.heeds {s : Scheduler} (hs : s.Sound) {key : String} {j : List (Nat × Sighting)}
    {p : Agenda Event} (h : Plan settings key j (s.entries.get? key) (s.flight? key) p)
    {x : Nat × Event} (hx : x ∈ p) : s.Heeds x.2 := by
  have hstanding := hs.standing key
  generalize hentry : s.entries.get? key = e at h hstanding
  generalize hflight : s.flight? key = f at h hstanding
  cases h with
  | idle => cases hx
  | @debouncing e =>
    rw [List.mem_singleton.mp hx]
    cases hstanding with
    | debouncing hphase => exact ⟨e, hentry, hphase, rfl⟩
  | @running e q due outcome =>
    rw [List.mem_singleton.mp hx]
    show s.Heeds (q.awaited outcome)
    have hmem := mem_runs_of_flight? hflight
    unfold Run.awaited
    cases hstage : q.stage with
    | runner => exact ⟨q, hmem, by rw [Run.awaited, hstage]⟩
    | task n => exact ⟨q, hmem, by rw [Run.awaited, hstage]⟩

/-- What is seen of other keys leaves the plans for a key as they are. -/
theorem Plan.extend {key : String} {j more : List (Nat × Sighting)} {e : Option Entry}
    {r : Option Run} {p : Agenda Event} (h : Plan settings key j e r p)
    (hstill : ∀ σ ∈ more.map (·.2), σ.Still key)
    (hfinished : finishedOf key (more.map (·.2)) = []) :
    Plan settings key (j ++ more) e r p := by
  have hwaiting : waiting key ((j ++ more).map (·.2)) = waiting key (j.map (·.2)) := by
    rw [List.map_append, waiting_still hstill]
  cases h with
  | idle => exact .idle
  | debouncing hlast hbase => exact .debouncing (by rw [hwaiting]; exact hlast) (hbase.extend more)
  | running due outcome hkey hqueued =>
    refine .running due outcome hkey fun n r hlast => ?_
    rw [hwaiting] at hlast
    exact (hqueued n r hlast).extend hfinished

/-- After a clear the run in flight of a key is all that is planned for it. -/
theorem Plan.clear {s : Scheduler} {key : String} {j : List (Nat × Sighting)} {p : Agenda Event}
    (hs : s.Sound) (h : Plan settings key j (s.entries.get? key) (s.flight? key) p) (time : Nat)
    (dropped : List Nat) :
    Plan settings key (j ++ [(time, .cleared dropped)]) ((clear s).1.entries.get? key)
      ((clear s).1.flight? key)
      (p.filter fun x => x.2.disarm?.all fun f => f ∉ (clear s).2) := by
  have hwaiting : waiting key ((j ++ [(time, Sighting.cleared dropped)]).map (·.2)) = [] := by
    rw [List.map_append]
    exact waiting_cleared key _ dropped
  have hstanding := hs.standing key
  rw [get?_clear]
  show Plan settings key _ _ (s.flight? key) _
  generalize hentry : s.entries.get? key = e at h hstanding
  generalize s.flight? key = f at h hstanding
  cases h with
  | idle => exact .idle
  | @debouncing e =>
    cases hstanding with
    | debouncing hphase htimer =>
      have hdisarm := disarm_mem_clear hentry htimer
      rw [Option.bind_some, if_neg (by rw [hphase]; decide),
        List.filter_cons_of_neg (by simpa [Event.disarm?] using hdisarm)]
      exact .idle
  | @running e q due outcome hkey =>
    cases hstanding with
    | running hphase =>
      rw [Option.bind_some, if_pos hphase, List.filter_cons_of_pos (by simp)]
      refine .running due outcome hkey fun n r hlast => ?_
      rw [hwaiting] at hlast
      cases hlast

end Scheduler

namespace Timeline

open Scheduler

variable {World : Type} {settings : SchedulerSettings}

/-- The ways in which an event comes to be told: from outside, or because it is due. -/
inductive Calls (t : Timeline World) : Timeline World → Event → Prop where
  | request (r : SyncRequest) : Calls t t (.schedule r)
  | clear : Calls t t .clear
  | due {time : Nat} {e : Event} {rest : Agenda Event} (h : t.agenda = (time, e) :: rest) :
    Calls t { t with now := time, agenda := rest } e

/-- What was planned for the key of an event when the event is told. -/
inductive Pops (now : Nat) : Event → Agenda Event → Agenda Event → Prop where
  | request (r : SyncRequest) (p : Agenda Event) : Pops now (.schedule r) p p
  | due {e : Event} (he : ∀ r, e ≠ .schedule r) (p : Agenda Event) : Pops now e ((now, e) :: p) p

/-- A request was not planned. -/
theorem Pops.of_request {now : Nat} {r : SyncRequest} {p p' : Agenda Event}
    (h : Pops now (.schedule r) p p') : p' = p := by
  cases h with
  | request => rfl
  | due he => exact absurd rfl (he r)

/-- What was due was all that was planned for its key. -/
theorem Pops.of_due {now : Nat} {e : Event} {x : Nat × Event} {p : Agenda Event}
    (he : ∀ r, e ≠ .schedule r) (h : Pops now e [x] p) : x.1 = now ∧ p = [] := by
  generalize hl : [x] = l at h
  cases h with
  | request r => exact absurd rfl (he r)
  | due =>
    cases hl
    exact ⟨rfl, rfl⟩

/-- The request that was registered last is the last one that waits. -/
theorem last_registered {key : String} {r : SyncRequest} (hkey : r.key = key)
    (j : List (Nat × Sighting)) (time n : Nat) :
    (waiting key ((j ++ [(time, Sighting.registered n r)]).map (·.2))).getLast? = some (n, r) := by
  rw [List.map_append]
  show (waiting key (j.map (·.2) ++ [Sighting.registered n r])).getLast? = _
  rw [waiting_registered, if_pos hkey, List.getLast?_concat]

-- What becomes of the plans for a key: one lemma for each thing that an event can do.
section Own

variable {key : String} {j : List (Nat × Sighting)} {a : Agenda Event} {e e' : Entry} {r : Run}

/-- The end of the work of a run was all that was planned for its key. -/
theorem empty_of_awaited {p p' : Agenda Event} {now : Nat} {outcome : RunOutcome}
    (h : Plan settings key j (some e) (some r) p) (hpops : Pops now (r.awaited outcome) p p') :
    p' = [] := by
  cases h with
  | running => exact (hpops.of_due (awaited_ne_schedule r outcome)).2

/-- A request on a key without a run in flight arms its timer. -/
theorem plan_armed (hempty : plansOf key a = []) (hfree : ¬ InFlight key (j.map (·.2)))
    {q : SyncRequest} (hkey : q.key = key) (now n : Nat) :
    Plan settings key (j ++ [(now, .registered n q)]) (some e) none
      (plansOf key (a.enter (now + settings.delayOf q.reason q.overrideMs)
        (.timer key e.token))) := by
  rw [plansOf_enter_self rfl hempty]
  exact .debouncing (last_registered hkey j now n) (.free hfree)

/-- A request that comes during a run is queued. -/
theorem plan_queued {p : Agenda Event} (h : Plan settings key j (some e) (some r) p)
    (hbusy : InFlight key (j.map (·.2))) {q : SyncRequest} (hkey : q.key = key) (now n : Nat) :
    Plan settings key (j ++ [(now, .registered n q)]) (some e') (some r) p := by
  cases h with
  | running due outcome hown =>
    refine .running due outcome hown fun m last hlast => ?_
    rw [last_registered hkey] at hlast
    cases hlast
    exact ⟨j, now, [], rfl, hbusy, rfl⟩

/-- A run that starts leaves no request waiting. -/
theorem plan_started (hempty : plansOf r.key a = []) (now due : Nat) (reason : SyncReason)
    (outcome : RunOutcome) :
    Plan settings r.key (j ++ [(now, .started r.key reason)]) (some e) (some r)
      (plansOf r.key (a.enter due (r.awaited outcome))) := by
  have hnone : waiting r.key ((j ++ [(now, Sighting.started r.key reason)]).map (·.2)) = [] := by
    rw [List.map_append]
    exact (waiting_started r.key _ r.key reason).trans (if_pos rfl)
  rw [plansOf_enter_self (Run.awaited_key? r outcome) hempty]
  refine .running due outcome rfl fun n q hlast => ?_
  rw [hnone] at hlast
  cases hlast

/-- The requests that wait go on to wait when a task of the run starts. -/
theorem plan_nextTask {p : Agenda Event} (h : Plan settings r.key j (some e) (some r) p)
    (hempty : plansOf r.key a = []) (now due n : Nat) (rest : List Nat)
    (closing outcome : RunOutcome) :
    Plan settings r.key (j ++ [(now, r.closing closing), (now, .taskStarted r.key n)]) (some e)
      (some { r with stage := .task n, tasks := rest })
      (plansOf r.key (a.enter due (.taskEnded r.key r.epoch n outcome))) := by
  cases h with
  | running _ _ _ hqueued =>
    have hstill : ∀ σ ∈ [r.closing closing, .taskStarted r.key n], σ.Still r.key :=
      still_closing r.key r closing ⟨rfl, rfl⟩
    have hwaiting := waiting_still hstill (j.map (·.2))
    rw [plansOf_enter_self rfl hempty]
    refine .running (q := { r with stage := .task n, tasks := rest }) _ _ rfl fun m q hlast => ?_
    rw [List.map_append] at hlast
    exact (hqueued m q (hwaiting ▸ hlast)).extend
      (finishedOf_closing r.key r closing (.taskStarted r.key n))

/-- An entry with requests has the reason and the override of the last one. -/
theorem exists_last {requests : List (Nat × SyncRequest)} (h : Carries (some e) requests)
    (hsome : e.waiters ≠ []) : ∃ n q, requests.getLast? = some (n, q) ∧
      e.reason = q.reason ∧ e.overrideMs = q.overrideMs := by
  cases h with
  | stored hwaiters _ hkeeps =>
    have hrequests : requests ≠ [] := by
      rintro rfl
      exact hsome hwaiters
    have hlast := List.getLast?_eq_some_getLast hrequests
    exact ⟨_, _, hlast, hkeeps _ hlast⟩

/-- The delay of the requests that wait begins when the run ends. -/
theorem plan_followed {p : Agenda Event} (h : Plan settings r.key j (some e) (some r) p)
    (hempty : plansOf r.key a = []) (hcarries : Carries (some e) (waiting r.key (j.map (·.2))))
    (hsome : e.waiters ≠ []) (now : Nat) (closing : RunOutcome) :
    Plan settings r.key (j ++ [(now, r.closing closing), (now, .finished r.key r.waiters)])
      (some e') none
      (plansOf r.key (a.enter (now + settings.delayOf e.reason e.overrideMs)
        (.timer r.key e'.token))) := by
  cases h with
  | running _ _ _ hqueued =>
    obtain ⟨n, q, hlast, hreason, hoverride⟩ := exists_last hcarries hsome
    have hclosed : finishedOf r.key ([(now, r.closing closing)].map (·.2)) = [] :=
      List.filterMap_cons_none (r.closing_finished? closing r.key)
    have hbase := (hqueued n q hlast).finish hclosed now r.waiters
    rw [List.append_assoc] at hbase
    rw [plansOf_enter_self rfl hempty, hreason, hoverride]
    refine .debouncing ?_ hbase
    have hstill : ∀ σ ∈ [r.closing closing, .finished r.key r.waiters], σ.Still r.key :=
      still_closing r.key r closing ⟨rfl, rfl⟩
    rw [List.map_append]
    exact (waiting_still hstill (j.map (·.2))).symm ▸ hlast

end Own

/-- Every event keeps the plans for its key. -/
theorem plan_own (w : Worker World) {t : Timeline World} {s : Scheduler} {key : String}
    {j : List (Nat × Sighting)} {event : Event} {e e' : Option Entry} {f f' : Option Run}
    {effects : List Effect} {p : Agenda Event} (hcarries : Carries e (waiting key (j.map (·.2))))
    (hflying : InFlight key (j.map (·.2)) ↔ ∃ r, f = some r) (hheeds : s.Heeds event)
    (hplan : Plan settings key j e f p) (hpops : Pops t.now event p (plansOf key t.agenda))
    (hchange : Change settings s key event e f e' f' effects) :
    Plan settings key (j ++ (seen (s.requests + 1) event effects).map (Prod.mk t.now)) e' f'
      (plansOf key (effects.foldl (perform w) t).agenda) := by
  cases hchange with
  | opened q epoch token hkey =>
    cases hplan with
    | idle =>
      have hfree : ¬ InFlight key (j.map (·.2)) := fun h => nomatch hflying.mp h
      exact plan_armed hpops.of_request hfree hkey t.now _
  | @rearmed q token e hkey hphase =>
    cases hplan with
    | debouncing =>
      have hfree : ¬ InFlight key (j.map (·.2)) := fun h => nomatch hflying.mp h
      have hdropped : plansOf key (t.agenda.drop (.timer key e.token)) = [] := by
        rw [plansOf_drop, hpops.of_request]
        simp [Agenda.drop]
      exact plan_armed hdropped hfree hkey t.now _
  | @queued q e r hkey hphase =>
    show Plan settings key (j ++ [(t.now, .registered (s.requests + 1) q)]) _ _
      (plansOf key t.agenda)
    rw [hpops.of_request]
    exact plan_queued hplan (hflying.mpr ⟨r, rfl⟩) hkey t.now _
  | @fired e hphase =>
    cases hplan with
    | debouncing =>
      obtain ⟨_, hnone⟩ := hpops.of_due fun r h => by cases h
      exact plan_started (r := e.run key) hnone t.now _ e.reason _
  | @nextTask e r n rest outcome hkey htasks =>
    subst hkey
    have hnone := empty_of_awaited hplan hpops
    rw [seen_nextTask]
    exact plan_nextTask hplan hnone t.now _ n rest outcome _
  | @ended e r outcome hkey htasks hnone hcovers =>
    rw [agenda_resolve, empty_of_awaited hplan hpops]
    exact .idle
  | @followed e r outcome token hkey htasks hsome hcovers =>
    subst hkey
    have hnone := empty_of_awaited hplan hpops
    rw [seen_followed hcovers, List.foldl_cons, agenda_resolve]
    exact plan_followed hplan hnone hcarries hsome t.now outcome
  | ignored hstale => exact absurd hheeds hstale

/-- Effects of an event only plan for its key. -/
theorem effects_key {s : Scheduler} {key : String} {event : Event} {e e' : Option Entry}
    {f f' : Option Run} {effects : List Effect}
    (h : Change settings s key event e f e' f' effects) {other : String} (hother : other ≠ key) :
    ∀ effect ∈ effects, effect.key? ≠ some other := by
  have hne : some key ≠ some other := fun he => hother (Option.some.inj he).symm
  have hresolve : ∀ numbers : List Nat, ∀ effect ∈ numbers.map Effect.resolve,
      effect.key? ≠ some other := by
    intro numbers effect hmem
    obtain ⟨n, _, rfl⟩ := List.mem_map.mp hmem
    exact fun h => nomatch h
  cases h with
  | opened | fired | nextTask =>
    intro effect hmem
    rw [List.mem_singleton.mp hmem]
    exact hne
  | rearmed =>
    intro effect hmem
    rcases List.mem_pair.mp hmem with rfl | rfl <;> exact hne
  | queued | ignored => exact fun effect hmem => absurd hmem List.not_mem_nil
  | ended => exact hresolve _
  | followed =>
    intro effect hmem
    rcases List.mem_cons.mp hmem with rfl | hmem
    · exact hne
    · exact hresolve _ effect hmem

-- ── Timelines and their histories ─────────────────────────────────────────────

/-- What holds of a timeline after it has told events at their times. -/
structure Clocked (settings : SchedulerSettings) (t : Timeline World)
    (history : List (Nat × Event)) : Prop where
  scheduler : t.scheduler = after settings {} (history.map (·.2))
  ordered : t.agenda.Ordered
  upcoming : Upcoming t.now t.agenda
  plans : ∀ key, Plan settings key (timed settings {} history) (t.scheduler.entries.get? key)
    (t.scheduler.flight? key) (plansOf key t.agenda)
  punctual : Punctual settings (timed settings {} history)
  logged : t.log = (timed settings {} history).flatMap fun x =>
    x.2.happenings.map (Prod.mk x.1)

section Clocked

variable {t : Timeline World} {history : List (Nat × Event)} (h : Clocked settings t history)
include h

theorem Clocked.sound : t.scheduler.Sound := h.scheduler ▸ sound_after settings _

/-- The journal of the events accounts for what the scheduler keeps. -/
theorem Clocked.recorded : Recorded t.scheduler (journal settings {} (history.map (·.2))) :=
  h.scheduler ▸ recorded_after settings _

/-- The world is of no account. -/
theorem Clocked.withWorld (world : World) : Clocked settings { t with world } history where
  scheduler := h.scheduler
  ordered := h.ordered
  upcoming := h.upcoming
  plans := h.plans
  punctual := h.punctual
  logged := h.logged

end Clocked

/-- At the start nothing is planned. -/
theorem clocked_start (settings : SchedulerSettings) (world : World) :
    Clocked settings { world } [] where
  scheduler := rfl
  ordered := List.Pairwise.nil
  upcoming _ hx := nomatch hx
  plans _ := .idle
  punctual before _ _ _ _ h := by cases before <;> cases h
  logged := rfl

/-- A call leaves what is planned for other keys. -/
theorem Calls.plansOf_other {t t' : Timeline World} {e : Event} (hcall : Calls t t' e)
    {key : String} (hkey : e.key? ≠ some key) : plansOf key t'.agenda = plansOf key t.agenda := by
  cases hcall with
  | request => rfl
  | clear => rfl
  | due hagenda => rw [hagenda, plansOf_cons, if_neg hkey]

/-- A call changes the clock and the agenda at most. -/
theorem Calls.same {t t' : Timeline World} {e : Event} (hcall : Calls t t' e) :
    t'.scheduler = t.scheduler ∧ t'.log = t.log := by
  cases hcall <;> exact ⟨rfl, rfl⟩

section Calls

variable {t t' : Timeline World} {history : List (Nat × Event)} {e : Event}
  (h : Clocked settings t history) (hcall : Calls t t' e)
include h hcall

/-- What is told is current. -/
theorem Clocked.heeds : t.scheduler.Heeds e := by
  have hs := h.sound
  cases hcall with
  | request => trivial
  | clear => trivial
  | @due time _ rest hagenda =>
    have hx : (time, e) ∈ t.agenda := hagenda ▸ List.mem_cons_self
    obtain ⟨key, hkey⟩ := Event.exists_key (h.upcoming _ hx).2
    exact (h.plans key).heeds hs (List.mem_filter.mpr ⟨hx, decide_eq_true hkey⟩)

/-- When an event is told its key has no further plans, unless it comes from outside. -/
theorem Clocked.pops {key : String} (hkey : e.key? = some key) :
    Pops t'.now e (plansOf key t.agenda) (plansOf key t'.agenda) := by
  cases hcall with
  | request r => exact .request r _
  | clear => cases hkey
  | @due time _ rest hagenda =>
    have hplans : plansOf key t.agenda = (time, e) :: plansOf key rest := by
      rw [hagenda, plansOf_cons, if_pos hkey]
    have hplan := h.plans key
    rw [hplans] at hplan ⊢
    exact .due (hplan.ne_schedule List.mem_cons_self) _

/-- A call keeps the agenda in order and ahead of the clock. -/
theorem Clocked.agenda_call : t'.agenda.Ordered ∧ Upcoming t'.now t'.agenda := by
  cases hcall with
  | request => exact ⟨h.ordered, h.upcoming⟩
  | clear => exact ⟨h.ordered, h.upcoming⟩
  | @due time _ rest hagenda =>
    have hordered := h.ordered
    have hupcoming := h.upcoming
    rw [hagenda] at hordered hupcoming
    obtain ⟨hfirst, hrest⟩ := List.pairwise_cons.mp hordered
    exact ⟨hrest, fun x hx => ⟨hfirst x hx, (hupcoming x (List.mem_cons_of_mem _ hx)).2⟩⟩

/-- A run starts on time. -/
theorem Clocked.punctual_move {s : Scheduler} {effects : List Effect}
    (hmove : Move settings t.scheduler e s effects) :
    Punctual settings (timed settings {} history ++
      (seen (t.scheduler.requests + 1) e effects).map (Prod.mk t'.now)) := by
  have hs := h.sound
  have hclosing : ∀ (r : Run) (outcome : RunOutcome) (σ : Sighting),
      (∀ key, σ.starts key = false) →
      ∀ x ∈ [r.closing outcome, σ].map (Prod.mk t'.now), ∀ key, x.2.starts key = false := by
    intro r outcome σ hσ x hx key
    obtain ⟨τ, hτ, rfl⟩ := List.mem_map.mp hx
    rcases List.mem_pair.mp hτ with rfl | rfl
    · unfold Run.closing
      cases r.stage <;> rfl
    · exact hσ key
  cases hmove with
  | opened | rearmed | queued | cleared =>
    refine h.punctual.extend fun x hx key => ?_
    rw [List.mem_singleton.mp hx]
    rfl
  | @fired key e hget hphase =>
    have hpops := h.pops hcall rfl
    have hplan := h.plans key
    have hcarries := h.recorded.entries key
    rw [← map_timed] at hcarries
    rw [hget, (hs.of_debouncing hget hphase).1] at hplan
    rw [hget] at hcarries
    generalize plansOf key t.agenda = p at hplan hpops
    cases hplan with
    | @debouncing _ n base r hlast hbase =>
      obtain ⟨hdue, _⟩ := hpops.of_due fun r h => by cases h
      have hreason : e.reason = r.reason := by
        generalize waiting key _ = requests at hcarries hlast
        cases hcarries with
        | stored _ _ hkeeps => exact (hkeeps _ hlast).1
      show Punctual settings (timed settings {} history ++ [(t'.now, .started key e.reason)])
      rw [← hdue, hreason]
      exact h.punctual.start hlast hbase
  | nextTask =>
    rw [seen_nextTask]
    exact h.punctual.extend (hclosing _ _ _ fun _ => rfl)
  | ended outcome hr htasks hget hphase hnone hcovers =>
    rw [seen_ended hcovers]
    exact h.punctual.extend (hclosing _ _ _ fun _ => rfl)
  | followed outcome hr htasks hget hphase hsome hcovers =>
    rw [seen_followed hcovers]
    exact h.punctual.extend (hclosing _ _ _ fun _ => rfl)
  | ignored event hstale =>
    rw [seen_stale hstale]
    exact h.punctual.extend fun x hx => absurd hx List.not_mem_nil

/-- The plans for every key are kept. -/
theorem Clocked.plans_move (w : Worker World) {s : Scheduler} {effects : List Effect}
    (hmove : Move settings t.scheduler e s effects) (key : String) :
    Plan settings key
      (timed settings {} history ++
        (seen (t.scheduler.requests + 1) e effects).map (Prod.mk t'.now))
      (s.entries.get? key) (s.flight? key)
      (plansOf key (effects.foldl (perform w) { t'.observed e with scheduler := s }).agenda) := by
  have hs := h.sound
  have hagenda : plansOf key { t'.observed e with scheduler := s }.agenda = plansOf key t'.agenda :=
    congrArg (plansOf key) (agenda_observed t' e)
  by_cases hclear : e = .clear
  · subst hclear
    obtain ⟨rfl, rfl⟩ := hmove.of_clear
    rw [agenda_disarm w _ (clear_plans _), plansOf_filter, hagenda,
      hcall.plansOf_other fun he => nomatch he]
    exact (h.plans key).clear hs t'.now _
  · obtain ⟨own, hown⟩ := Event.exists_key hclear
    by_cases hkey : key = own
    · subst hkey
      have hbatched : Batched key t.scheduler (journal settings {} (history.map (·.2))) :=
        h.scheduler ▸ batched_after settings _ key
      have hcarries := h.recorded.entries key
      have hflying := hbatched.inFlight_iff
      have hpops := h.pops hcall hown
      rw [← map_timed] at hcarries hflying
      rw [← hagenda, ← now_observed t' e] at hpops
      rw [← now_observed t' e]
      exact plan_own w (t := { t'.observed e with scheduler := s }) hcarries hflying
        (h.heeds hcall) (h.plans key) hpops (hmove.change hs hown)
    · have hother : e.key? ≠ some key := fun he => hkey (Option.some.inj (he.symm.trans hown))
      have hplan := h.plans key
      rw [plansOf_foldl_other w _ (effects_key (hmove.change hs hown) hkey), hagenda,
        hcall.plansOf_other hother, (hmove.frame hs hclear hother).1,
        (hmove.frame hs hclear hother).2]
      refine hplan.extend ?_ ?_
      · rw [map_stamped]
        exact still_other hmove hclear hother
      · rw [map_stamped]
        exact finishedOf_other hmove hother

/-- Every call that a timeline makes keeps it on time. -/
theorem Clocked.tell (w : Worker World) :
    Clocked settings (Timeline.tell settings w t' e) (history ++ [(t'.now, e)]) := by
  have hs := h.sound
  have hmove := step_move settings hs e
  obtain ⟨hscheduler, hlog⟩ := hcall.same
  obtain ⟨hordered, hupcoming⟩ := h.agenda_call hcall
  have htimed := timed_concat settings {} history t'.now e
  rw [← h.scheduler] at htimed
  obtain ⟨hordered', hupcoming'⟩ := agenda_tell settings w t' e hordered hupcoming
  constructor
  case scheduler =>
    rw [scheduler_tell, hscheduler, List.map_append, h.scheduler]
    exact (after_concat _ _ _).symm
  case ordered => exact hordered'
  case upcoming =>
    rw [now_tell]
    exact hupcoming'
  case plans =>
    intro key
    rw [htimed, scheduler_tell, hscheduler]
    have htell : Timeline.tell settings w t' e = (t.scheduler.step settings e).2.foldl (perform w)
        { t'.observed e with scheduler := (t.scheduler.step settings e).1 } := by
      rw [Timeline.tell, hscheduler]
    rw [htell]
    exact h.plans_move hcall w hmove key
  case punctual =>
    rw [htimed]
    exact h.punctual_move hcall hmove
  case logged =>
    rw [htimed, log_tell settings w t' e (hscheduler ▸ hs) (hscheduler ▸ h.heeds hcall), hlog,
      h.logged, hscheduler, List.flatMap_append, List.flatMap_map, List.map_flatMap]

end Calls

end Timeline

end ProofLedger
