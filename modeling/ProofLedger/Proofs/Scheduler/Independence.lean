import ProofLedger.Proofs.Scheduler.View

/-!
# Keys are independent

All keys share one table, one counter for tokens, epochs and requests, and one clock. Yet a timeline
shows of each key what happens on its lane (`Follows`): the events of other keys leave the lane as
it is, and those of its own are what happens on it. Since a lane knows nothing of other keys, their
requests make no difference to what is observed of the key.
-/

namespace ProofLedger

open Scheduler

-- ── The keys of requests ──────────────────────────────────────────────────────

/-- The keys of the requests that a history brings. -/
def keysIn (history : List (Nat × Event)) : List String :=
  (history.filterMap Timeline.request?).map (·.2.key)

theorem keysIn_append (a b : List (Nat × Event)) : keysIn (a ++ b) = keysIn a ++ keysIn b := by
  unfold keysIn
  rw [List.filterMap_append, List.map_append]

/-- An event of another key brings no request of the key. -/
theorem count_keysIn_other {key : String} {time : Nat} {e : Event} (hkey : e.key? ≠ some key) :
    (keysIn [(time, e)]).count key = 0 := by
  refine List.count_eq_zero.mpr fun hmem => ?_
  cases e with
  | schedule r => exact hkey (congrArg some (List.mem_singleton.mp hmem).symm)
  | _ => cases hmem

/-- What is no request brings none. -/
theorem keysIn_concat (history : List (Nat × Event)) (time : Nat) {e : Event}
    (he : ∀ r, e ≠ .schedule r) : keysIn (history ++ [(time, e)]) = keysIn history := by
  rw [keysIn_append]
  cases e with
  | schedule r => exact absurd rfl (he r)
  | _ => exact List.append_nil _

/-- The journal of a history registers its requests. -/
theorem keys_registry (settings : SchedulerSettings) (history : List (Nat × Event)) :
    (registry (journal settings {} (history.map (·.2)))).map (·.2.key) = keysIn history := by
  have hregistered : Timeline.registrations (timed settings {} history) =
      history.filterMap Timeline.request? := Timeline.registrations_timed {} history
  rw [keysIn, ← hregistered, ← map_timed, registry, Timeline.registrations, List.filterMap_map,
    List.map_filterMap, List.map_filterMap]
  congr 1
  funext x
  cases h : x.2.registered? <;> simp [h]

namespace Timeline

variable {World : Type} {settings : SchedulerSettings} {t : Timeline World}
  {history : List (Nat × Event)} (h : Clocked settings t history)
include h

theorem Clocked.length_registry :
    (registry (journal settings {} (history.map (·.2)))).length = t.scheduler.requests := by
  have hlength := congrArg List.length h.recorded.numbers
  rw [List.length_map, List.length_range'] at hlength
  exact hlength

/-- There are as many requests as keys of requests. -/
theorem Clocked.requests_eq : t.scheduler.requests = (keysIn history).length := by
  rw [← h.length_registry, ← keys_registry settings, List.length_map]

/-- A request that is held for a key is one of its own. -/
theorem Clocked.key_of_held {key : String} {n : Nat} (hn : n ∈ heldBy t.scheduler key) :
    ∃ i, n = i + 1 ∧ (keysIn history)[i]? = some key := by
  obtain ⟨r, hr, rfl⟩ := h.recorded.registered_of_held hn
  obtain ⟨i, hi, hget⟩ := List.mem_iff_getElem.mp (mem_registry.mpr hr)
  have hsome : (registry (journal settings {} (history.map (·.2))))[i]? = some (n, r) :=
    List.getElem?_eq_some_iff.mpr ⟨hi, hget⟩
  refine ⟨i, ?_, ?_⟩
  · have hnumber := congrArg (·[i]?) h.recorded.numbers
    simp only [List.getElem?_map, hsome, Option.map_some] at hnumber
    rw [List.getElem?_range' (h.length_registry ▸ hi)] at hnumber
    have hn := Option.some.inj hnumber
    omega
  · rw [← keys_registry settings, List.getElem?_map, hsome]
    rfl

end Timeline

-- ── Events of other keys ──────────────────────────────────────────────────────

section Others

variable {settings : SchedulerSettings} {key : String} {keys : List String}

/-- No number of another key names a request of the key. -/
theorem ordinal?_eq_none {k : String} {i : Nat} (hk : keys[i]? = some k) (hother : k ≠ key) :
    ordinal? key keys (i + 1) = none := by
  refine if_neg fun h => hother ?_
  rw [hk] at h
  exact Option.some.inj h

/-- Requests are only resolved by the run of their key. -/
theorem Scheduler.Change.resolves {s : Scheduler} {event : Event} {e e' : Option Entry}
    {f f' : Option Run} {effects : List Effect}
    (h : Change settings s key event e f e' f' effects) {n : Nat}
    (hn : .resolve n ∈ effects) : ∃ r, f = some r ∧ n ∈ r.waiters := by
  cases h with
  | opened | rearmed | queued | fired | nextTask | ignored => simp at hn
  | @ended e r => exact ⟨r, rfl, by simpa using hn⟩
  | @followed e r => exact ⟨r, rfl, by simpa using hn⟩

/-- What is observed of the event of another key says nothing of the key. -/
theorem about_other {e : Event} (hkey : e.key? ≠ some key) :
    e.happening?.toList.filterMap (Happening.about key keys) = [] := by
  cases e with
  | runEnded k epoch outcome =>
    have hne : k ≠ key := fun he => hkey (congrArg some he)
    have hnone : Happening.about key keys (.ended k outcome) = none := if_neg hne
    exact List.filterMap_cons_none hnone
  | _ => rfl

/-- Neither do its effects. -/
theorem about_effects {effects : List Effect} (hkey : ∀ f ∈ effects, f.key? ≠ some key)
    (hresolve : ∀ n, .resolve n ∈ effects → ordinal? key keys n = none) :
    (effects.filterMap Effect.happening?).filterMap (Happening.about key keys) = [] := by
  rw [List.filterMap_filterMap]
  refine List.filterMap_eq_nil_iff.mpr fun f hf => ?_
  have hother := hkey f hf
  cases f with
  | arm | disarm => rfl
  | startRun k epoch reason => exact if_neg fun he => hother (congrArg some he)
  | startTask k epoch n => exact if_neg fun he => hother (congrArg some he)
  | resolve n => exact congrArg (Option.map Happening.resolved) (hresolve n hf)

/-- What only the value under a key contributes to. -/
theorem Keyed.flatMap_of_key {α β : Type} {entries : List (String × α)} (h : Keyed.Sorted entries)
    {g : String × α → List β} (hother : ∀ x ∈ entries, x.1 ≠ key → g x = []) :
    entries.flatMap g = ((Keyed.find? key entries).map fun v => g (key, v)).getD [] := by
  have hnodup := h.nodup
  clear h
  induction entries with
  | nil => rfl
  | cons x rest ih =>
    obtain ⟨k, v⟩ := x
    obtain ⟨hfresh, hrest⟩ := List.nodup_cons.mp hnodup
    rw [List.flatMap_cons]
    by_cases hk : k = key
    · subst hk
      have hnone : rest.flatMap g = [] := List.flatMap_eq_nil_iff.mpr fun x hx =>
        hother x (List.mem_cons_of_mem _ hx) fun he => hfresh (List.mem_map.mpr ⟨x, hx, he⟩)
      rw [hnone, List.append_nil]
      simp [Keyed.find?]
    · rw [hother _ List.mem_cons_self hk, List.nil_append,
        ih (fun x hx => hother x (List.mem_cons_of_mem _ hx)) hrest]
      simp [Keyed.find?, hk]

/-- What a clear resolves. -/
theorem happenings_clear (s : Scheduler) :
    (clear s).2.filterMap Effect.happening? =
      s.entries.entries.flatMap fun x => x.2.waiters.map .resolved := by
  have hseen : (resolvedBy (clear s).2).map Happening.resolved ++ [] =
      (clear s).2.filterMap Effect.happening? :=
    happenings_seen (Move.cleared : Move {} s .clear _ _) trivial
  rw [← hseen, List.append_nil, resolvedBy_clear, List.map_flatMap, Table.values,
    List.flatMap_map]

/-- Of what a clear resolves only the requests of the key are seen on it. -/
theorem about_clear {s : Scheduler} {dropped : List Nat}
    (hother : ∀ k, k ≠ key → ∀ n ∈ heldBy s k, ordinal? key keys n = none)
    (hown : List.Forall₂ (Names key keys) (((s.entries.get? key).map (·.waiters)).getD [])
      dropped) :
    ((clear s).2.filterMap Effect.happening?).filterMap (Happening.about key keys) =
      dropped.map .resolved := by
  rw [happenings_clear, List.filterMap_flatMap, Keyed.flatMap_of_key s.entries.sorted]
  · show ((s.entries.get? key).map _).getD [] = _
    cases hget : s.entries.get? key with
    | none =>
      rw [hget] at hown
      cases hown
      rfl
    | some e =>
      rw [hget] at hown
      exact about_resolved hown
  · rintro ⟨k, e⟩ hmem hk
    refine List.filterMap_eq_nil_iff.mpr fun x hx => ?_
    obtain ⟨n, hn, rfl⟩ := List.mem_map.mp hx
    refine congrArg (Option.map Happening.resolved) (hother k hk n ?_)
    exact mem_heldBy.mpr (Or.inl ⟨e, Table.mem_entries.mp hmem, hn⟩)

end Others

-- ── A timeline and a lane ─────────────────────────────────────────────────────

namespace Lane

section Follows

open Timeline
open Script (worker)

variable (settings : SchedulerSettings) (key : String) (keys : List String)

/-- The lane is what a timeline shows of a key. The keys are those of all requests there will ever
    be, so that the name of a request never changes. -/
structure Follows (t : Timeline Script) (history : List (Nat × Event)) (lane : Lane) : Prop where
  clocked : Clocked settings t history
  /-- the requests so far are the first ones of all -/
  named : keysIn history <+: keys
  asked : lane.asked = (keysIn history).count key
  runs : t.world.runsOf key = lane.runs
  log : logAbout key keys t.log = lane.log
  /-- entry, run in flight and plans are what goes on -/
  shows : Shows key keys t.world.tasks (t.scheduler.entries.get? key) (t.scheduler.flight? key)
    (plansOf key t.agenda) lane.doing

variable {settings key keys} {t : Timeline Script} {history : List (Nat × Event)} {lane : Lane}
  (h : Follows settings key keys t history lane)
include h

/-- The keys of the requests so far are the first ones of all. -/
theorem Follows.getElem?_keys {i : Nat} {k : String} (hk : (keysIn history)[i]? = some k) :
    keys[i]? = some k := by
  obtain ⟨later, rfl⟩ := h.named
  obtain ⟨hi, _⟩ := List.getElem?_eq_some_iff.mp hk
  rw [List.getElem?_append_left hi]
  exact hk

/-- The requests that are held for other keys are not requests of the key. -/
theorem Follows.unnamed {k : String} (hk : k ≠ key) {n : Nat} (hn : n ∈ heldBy t.scheduler k) :
    ordinal? key keys n = none := by
  obtain ⟨i, rfl, hi⟩ := h.clocked.key_of_held hn
  exact ordinal?_eq_none (h.getElem?_keys hi) hk

/-- Tasks may be written down in advance. -/
theorem Follows.write (more : List (Nat × Work)) :
    Follows settings key keys { t with world := { t.world with tasks := t.world.tasks ++ more } }
      history lane where
  clocked := h.clocked.withWorld _
  named := h.named
  asked := h.asked
  runs := h.runs
  log := h.log
  shows := h.shows.extend more

/-- An event of another key leaves the lane as it is. -/
theorem Follows.other {t' : Timeline Script} {e : Event} (hcall : Calls t t' e)
    (hclear : e ≠ .clear) (hkey : e.key? ≠ some key)
    (hnamed : keysIn (history ++ [(t'.now, e)]) <+: keys) :
    Follows settings key keys (Timeline.tell settings worker t' e) (history ++ [(t'.now, e)])
      lane := by
  obtain ⟨hscheduler, hlog⟩ := hcall.same
  have hworld : t'.world = t.world := by cases hcall <;> rfl
  obtain ⟨own, hown⟩ := Event.exists_key hclear
  have hne : own ≠ key := fun he => hkey (he ▸ hown)
  have hmove := step_move settings h.clocked.sound e
  have hchange := hmove.change h.clocked.sound hown
  have heffects := effects_key hchange hne.symm
  obtain ⟨hget, hflight⟩ := hmove.frame h.clocked.sound hclear hkey
  constructor
  case clocked => exact h.clocked.tell hcall worker
  case named => exact hnamed
  case asked =>
    rw [h.asked, keysIn_append, List.count_append, count_keysIn_other hkey]
    rfl
  case runs =>
    rw [Timeline.tell, hscheduler]
    refine (runsOf_foldl_other _ heffects).trans ?_
    show (t'.observed e).world.runsOf key = lane.runs
    rw [world_observed, hworld, h.runs]
  case log =>
    have hresolve : ∀ n, .resolve n ∈ (t.scheduler.step settings e).2 →
        ordinal? key keys n = none := by
      intro n hn
      obtain ⟨r, hr, hmem⟩ := hchange.resolves hn
      exact h.unnamed hne (mem_heldBy.mpr (Or.inr ⟨r, hr, hmem⟩))
    rw [log_tell_eq, hscheduler, logAbout_append, hlog, h.log, List.filterMap_append,
      about_other hkey, about_effects heffects hresolve]
    exact List.append_nil _
  case shows =>
    have hagenda : plansOf key { t'.observed e with
        scheduler := (t.scheduler.step settings e).1 }.agenda = plansOf key t.agenda :=
      (congrArg (plansOf key) (agenda_observed t' e)).trans (hcall.plansOf_other hkey)
    rw [tasks_tell, hworld, scheduler_tell, hscheduler, hget, hflight, Timeline.tell, hscheduler,
      plansOf_foldl_other _ _ heffects, hagenda]
    exact h.shows

/-- What is due for the key is the next thing that happens on the lane. -/
theorem Follows.proceed {due : Nat} {e : Event} {rest : Agenda Event}
    (hagenda : t.agenda = (due, e) :: rest) (hkey : e.key? = some key) :
    Follows settings key keys
      (Timeline.tell settings worker { t with now := due, agenda := rest } e)
      (history ++ [(due, e)]) (lane.proceed settings key) := by
  have hcall := Calls.due hagenda
  have hquiet := keysIn_concat history due (h.clocked.event_due hagenda)
  have hplans : plansOf key t.agenda = (due, e) :: plansOf key rest := by
    rw [hagenda, plansOf_cons, if_pos hkey]
  have hshows := h.shows
  rw [hplans] at hshows
  have hworld : { { t with now := due, agenda := rest }.observed e with
      scheduler := (t.scheduler.step settings e).1 }.world = t.world :=
    world_observed { t with now := due, agenda := rest } e
  rw [← hworld] at hshows
  have hchange := (step_move settings h.clocked.sound e).change h.clocked.sound hkey
  obtain ⟨hnext, hruns, hlog⟩ := hshows.proceed
    ((congrArg (Script.runsOf · key) hworld).trans h.runs)
    (congrArg (plansOf key) (agenda_observed _ e)) (now_observed _ e) (h.clocked.heeds hcall)
    hchange
  constructor
  case clocked => exact h.clocked.tell hcall worker
  case named =>
    rw [hquiet]
    exact h.named
  case asked =>
    rw [hquiet, asked_proceed]
    exact h.asked
  case runs => exact hruns
  case log =>
    have hnow : ({ t with now := due, agenda := rest }.observed e).now = due := now_observed _ e
    rw [log_tell_eq, logAbout_append, hlog]
    dsimp only
    rw [hnow]
    exact congrArg (· ++ _) h.log
  case shows =>
    rw [scheduler_tell, Timeline.tell, tasks_foldl]
    exact hnext

/-- A request of the key joins the others on the lane. -/
theorem Follows.request {r : SyncRequest} {task : Option Work} {later : List String}
    (hnamed : keysIn history ++ r.key :: later = keys) (hkey : r.key = key)
    (htask : r.hasTask = task.isSome)
    (hlookup : ∀ work, task = some work →
      t.world.tasks.lookup (t.scheduler.requests + 1) = some work) (hnow : lane.now = t.now) :
    Follows settings key keys (Timeline.tell settings worker t (.schedule r))
      (history ++ [(t.now, .schedule r)]) (lane.request settings r task) := by
  subst hkey hnamed
  have hname : Names r.key (keysIn history ++ r.key :: later) (t.scheduler.requests + 1)
      (lane.asked + 1) := by
    rw [h.clocked.requests_eq, h.asked]
    exact ordinal?_next _ _
  have hchange : Change settings t.scheduler r.key (.schedule r) _ _ _ _ _ :=
    (step_move settings h.clocked.sound (.schedule r)).change h.clocked.sound rfl
  obtain ⟨hnext, hworld, hquiet⟩ := h.shows.request (t := { t with
    scheduler := (t.scheduler.step settings (.schedule r)).1 }) rfl hchange hname htask hlookup
  have hkeys : keysIn (history ++ [(t.now, .schedule r)]) = keysIn history ++ [r.key] :=
    keysIn_append _ _
  constructor
  case clocked => exact h.clocked.tell (.request r) worker
  case named =>
    rw [hkeys]
    exact ⟨later, by simp⟩
  case asked =>
    rw [hkeys, List.count_append, List.count_singleton_self, ← h.asked]
    rfl
  case runs => exact (congrArg (Script.runsOf · r.key) hworld).trans h.runs
  case log =>
    rw [log_tell_eq, hquiet]
    exact (congrArg _ (List.append_nil _)).trans h.log
  case shows =>
    rw [scheduler_tell, Timeline.tell, tasks_foldl]
    show Shows _ _ _ _ _ _ (lane.doing.join settings lane.now _)
    rw [hnow]
    exact hnext

/-- A clear drops the requests of the lane that no run has taken. -/
theorem Follows.clear (hnow : lane.now = t.now) :
    Follows settings key keys (Timeline.tell settings worker t .clear)
      (history ++ [(t.now, .clear)]) lane.clear := by
  have hquiet : keysIn (history ++ [(t.now, .clear)]) = keysIn history :=
    keysIn_concat history t.now fun r he => nomatch he
  have hlog := about_clear (fun k hk n hn => h.unnamed hk hn) h.shows.waiters
  constructor
  case clocked => exact h.clocked.tell .clear worker
  case named =>
    rw [hquiet]
    exact h.named
  case asked =>
    rw [hquiet]
    exact h.asked
  case runs =>
    exact (congrArg (Script.runsOf · key) (world_quiet _ (clear_plans _))).trans h.runs
  case log =>
    rw [log_tell_eq, logAbout_append, h.log]
    exact congrArg (lane.log ++ ·) (congrArg₂ (fun time happenings =>
      List.map (Prod.mk time) happenings) hnow.symm hlog)
  case shows =>
    have hagenda : plansOf key (Timeline.tell settings worker t .clear).agenda =
        (plansOf key t.agenda).filter fun x => x.2.disarm?.all fun f =>
          f ∉ (Scheduler.clear t.scheduler).2 := by
      rw [← plansOf_filter]
      exact congrArg (plansOf key) (agenda_disarm worker _ (clear_plans _))
    rw [tasks_tell, scheduler_tell, hagenda]
    exact h.shows.clear h.clocked.sound

/-- If nothing is due on the timeline then nothing is due on the lane. -/
theorem Follows.quiet {deadline : Nat} (hnone : t.agenda.next? deadline = none) :
    ¬ lane.DueBy deadline := by
  rintro ⟨due, hdue, hle⟩
  obtain ⟨event, hmem⟩ := h.shows.mem_plans hdue
  have hlt := h.clocked.ordered.lt_of_next? hnone (List.mem_filter.mp hmem).1
  omega

/-- All that is due by a time happens, on the timeline and on the lane. -/
theorem Follows.runUntil (deadline fuel : Nat) (hfuel : t.workload ≤ fuel)
    (hnow : t.now ≤ deadline) :
    Follows settings key keys (runUntil settings worker deadline fuel t)
      (history ++ toldUntil settings worker deadline fuel t)
      (lane.upTo settings key deadline) := by
  induction fuel generalizing t history lane with
  | zero =>
    -- the workload bounds the agenda, so nothing is left that could be due
    rw [workload_eq] at hfuel
    have hempty : t.agenda = [] := List.length_eq_zero_iff.mp (by omega)
    have hnone : t.agenda.next? deadline = none := by rw [hempty]; rfl
    rw [Timeline.runUntil, toldUntil, List.append_nil,
      upTo_of_not_dueBy settings key (h.quiet hnone)]
    exact h
  | succ fuel ih =>
    cases hnext : t.agenda.next? deadline with
    | none =>
      rw [Timeline.runUntil, toldUntil, next?, hnext,
        upTo_of_not_dueBy settings key (h.quiet hnext)]
      simp only [Option.map_none, List.append_nil]
      exact h
    | some x =>
      obtain ⟨⟨due, e⟩, rest⟩ := x
      obtain ⟨hagenda, hdue⟩ := next?_eq_some hnext
      have hmem : (due, e) ∈ t.agenda := hagenda ▸ List.mem_cons_self
      have hmax : max t.now due = due := Nat.max_eq_right (h.clocked.upcoming _ hmem).1
      have hless := h.clocked.workload_tell worker hagenda
      have hquiet := keysIn_concat history due (h.clocked.event_due hagenda)
      rw [Timeline.runUntil, toldUntil, next?, hnext]
      simp only [Option.map_some, hmax]
      rw [List.append_cons]
      -- the lane proceeds with the events of its key and waits while others happen
      by_cases hkey : e.key? = some key
      · have hplan : (due, e) ∈ plansOf key t.agenda :=
          List.mem_filter.mpr ⟨hmem, decide_eq_true hkey⟩
        rw [upTo_of_dueBy settings key ⟨due, h.shows.due?_eq hplan, hdue⟩]
        exact ih (h.proceed hagenda hkey) (by omega) (by rw [now_tell]; exact hdue)
      · have hother := h.other (.due hagenda) (h.clocked.upcoming _ hmem).2 hkey
          (hquiet ▸ h.named)
        exact ih hother (by omega) (by rw [now_tell]; exact hdue)

/-- The clock is moved on, on the timeline and on the lane. -/
theorem Follows.advance (ms : Nat) (hnow : lane.now = t.now) :
    Follows settings key keys (Timeline.advance settings worker ms t)
      (history ++ toldUntil settings worker (t.now + ms) t.workload t)
      (lane.step settings key (.advance ms)) := by
  have hrun := h.runUntil (t.now + ms) t.workload (Nat.le_refl _) (Nat.le_add_right _ _)
  rw [Lane.step, hnow]
  exact
    { clocked := h.clocked.advance worker ms
      named := hrun.named
      asked := hrun.asked
      runs := hrun.runs
      log := hrun.log
      shows := hrun.shows }

end Follows

-- ── Steps ─────────────────────────────────────────────────────────────────────

section Steps

open Timeline
open Script (worker)

variable (settings : SchedulerSettings) (key : String) (keys : List String)

/-- Between two steps the clocks agree, and only requests that were made have tasks. -/
structure InStep (t : Timeline Script) (history : List (Nat × Event)) (lane : Lane) : Prop
    extends Follows settings key keys t history lane where
  now : lane.now = t.now
  written : ∀ x ∈ t.world.tasks, x.1 ≤ t.scheduler.requests

variable {settings key keys} {t : Timeline Script} {history : List (Nat × Event)} {lane : Lane}

/-- A step brings the request that it makes. -/
theorem keysIn_told (h : Clocked settings t history) (x : Script.Step) :
    keysIn (Script.told settings t x) = keysOf [x] := by
  cases x with
  | schedule r task => rfl
  | advance ms =>
    obtain ⟨_, _, hnone⟩ := h.runUntil worker (t.now + ms) t.workload (Nat.le_refl _)
      (Nat.le_add_right _ _)
    exact congrArg (List.map _) hnone
  | clear => rfl

theorem keysOf_cons (x : Script.Step) (rest : List Script.Step) :
    keysOf (x :: rest) = keysOf [x] ++ keysOf rest := List.filterMap_append (l := [x])

theorem tasks_runUntil (settings : SchedulerSettings) (deadline fuel : Nat)
    (t : Timeline Script) :
    (runUntil settings worker deadline fuel t).world.tasks = t.world.tasks := by
  induction fuel generalizing t with
  | zero => rfl
  | succ fuel ih =>
    rw [runUntil, next?]
    cases t.agenda.next? deadline with
    | none => rfl
    | some x => exact (ih _).trans (tasks_tell settings _ x.1.2)

/-- The lane follows a request, whichever key it is of. -/
theorem InStep.schedule (h : InStep settings key keys t history lane) (r : SyncRequest)
    (task : Option Work) {rest : List Script.Step}
    (hkeys : keysIn history ++ keysOf (.schedule r task :: rest) = keys) :
    Follows settings key keys (Script.step settings t (.schedule r task))
      (history ++ Script.told settings t (.schedule r task))
      (lane.step settings key (.schedule r task)) := by
  have hwritten := h.toFollows.write (task.map (Prod.mk (t.scheduler.requests + 1))).toList
  rw [Script.step_schedule, Lane.step]
  by_cases hkey : r.key = key
  · have hlookup : ∀ work, task = some work →
        (t.world.tasks ++ (task.map (Prod.mk (t.scheduler.requests + 1))).toList).lookup
          (t.scheduler.requests + 1) = some work := by
      rintro work rfl
      have hnone : t.world.tasks.lookup (t.scheduler.requests + 1) = none := by
        refine List.lookup_eq_none_iff.mpr fun x hx => ?_
        have hle := h.written x hx
        simp
        omega
      rw [List.lookup_append, hnone]
      simp
    rw [if_pos hkey]
    exact hwritten.request hkeys hkey rfl hlookup h.now
  · rw [if_neg hkey]
    refine hwritten.other (.request _) (by simp) (fun he => hkey (Option.some.inj he))
      ⟨keysOf rest, ?_⟩
    rw [keysIn_append, List.append_assoc]
    exact hkeys

/-- The lane follows every step. -/
theorem InStep.step (h : InStep settings key keys t history lane) (x : Script.Step)
    {rest : List Script.Step} (hkeys : keysIn history ++ keysOf (x :: rest) = keys) :
    InStep settings key keys (Script.step settings t x) (history ++ Script.told settings t x)
      (lane.step settings key x) := by
  have hrequests : (Script.step settings t x).scheduler.requests =
      t.scheduler.requests + (keysOf [x]).length := by
    rw [(Script.clocked_step h.clocked x).requests_eq, keysIn_append, keysIn_told h.clocked,
      List.length_append, ← h.clocked.requests_eq]
  cases x with
  | schedule r task =>
    refine { toFollows := h.schedule r task hkeys, now := ?_, written := ?_ }
    · rw [Script.step_schedule, now_tell, ← h.now, Lane.step]
      split <;> rfl
    · rw [hrequests, Script.step_schedule, tasks_tell]
      intro x hx
      rcases List.mem_append.mp hx with hold | hnew
      · exact Nat.le_succ_of_le (h.written x hold)
      · rw [Option.mem_toList, Option.map_eq_some_iff] at hnew
        obtain ⟨work, _, rfl⟩ := hnew
        exact Nat.le_refl _
  | advance ms =>
    refine { toFollows := h.toFollows.advance ms h.now, now := ?_, written := ?_ }
    · exact congrArg (· + ms) h.now
    · rw [hrequests]
      exact tasks_runUntil settings _ _ t ▸ h.written
  | clear =>
    refine { toFollows := h.toFollows.clear h.now, now := ?_, written := ?_ }
    · exact h.now.trans (now_tell settings worker t .clear).symm
    · rw [hrequests]
      exact tasks_tell settings t .clear ▸ h.written

/-- The lane follows all steps. -/
theorem InStep.steps (h : InStep settings key keys t history lane) (steps : List Script.Step)
    (hkeys : keysIn history ++ keysOf steps = keys) :
    InStep settings key keys (steps.foldl (Script.step settings) t)
      (history ++ Script.chronicle settings t steps)
      (steps.foldl (Lane.step settings key) lane) := by
  induction steps generalizing t history lane with
  | nil =>
    rw [Script.chronicle, List.append_nil]
    exact h
  | cons x rest ih =>
    rw [Script.chronicle, ← List.append_assoc]
    refine ih (h.step x hkeys) ?_
    rw [keysIn_append, keysIn_told h.clocked, List.append_assoc, ← keysOf_cons]
    exact hkeys

/-- What a timeline shows of a key after steps is the lane after them. -/
theorem inStep_after (settings : SchedulerSettings) (runs : Table (List Work)) (key : String)
    (steps : List Script.Step) :
    InStep settings key (keysOf steps) (Script.after settings { runs } steps)
      (Script.chronicle settings { world := { runs } } steps)
      (Lane.after settings key (Script.runsOf { runs } key) steps) := by
  have hstart : InStep settings key (keysOf steps) { world := { runs } } []
      { runs := Script.runsOf { runs } key } :=
    { clocked := clocked_start settings _
      named := List.nil_prefix
      asked := rfl
      runs := rfl
      log := rfl
      shows := .nothing
      now := rfl
      written := fun x hx => nomatch hx }
  exact hstart.steps steps rfl

/-- The phase of a key is that of its lane. -/
theorem Follows.phase_eq (h : Follows settings key keys t history lane) :
    t.scheduler.phase key = lane.doing.phase := h.shows.phase_eq (h.clocked.sound.standing key)

end Steps

end Lane

/-- Whatever is requested of other keys, and however their runs end, makes no difference to a key:
    at every point of a sequence of steps its log, with its requests counted on their own, and its
    phase are those of the sequence without the requests of other keys. -/
theorem Script.keys_independent (settings : SchedulerSettings) (runs : Table (List Work))
    (key : String) (steps : List Step) (n : Nat) :
    let done := steps.take n
    let alone := done.filter (·.concerns key)
    logAbout key (keysOf done) (after settings { runs } done).log =
        logAbout key (keysOf alone) (after settings { runs } alone).log ∧
      (after settings { runs } done).scheduler.phase key =
        (after settings { runs } alone).scheduler.phase key := by
  intro done alone
  have hdone := Lane.inStep_after settings runs key done
  have halone := Lane.inStep_after settings runs key alone
  rw [Lane.after_concerns] at halone
  exact ⟨hdone.log.trans halone.log.symm, hdone.phase_eq.trans halone.phase_eq.symm⟩

end ProofLedger
