import ProofLedger.Proofs.Scheduler.Requests
import ProofLedger.Scheduler.Script

/-!
# The agenda of a timeline

An agenda is in the order of the due times and stays so (`Agenda.Ordered`). What the scheduler asks
for changes only the plans for the key that an effect is about, and the log notes what is seen of
events: `Timeline.log_tell`.
-/

namespace ProofLedger

namespace Agenda

variable {α : Type}

/-- The items are in the order of their due times. -/
def Ordered (a : Agenda α) : Prop := a.Pairwise fun x y => x.1 ≤ y.1

/-- An agenda holds what is entered, and what it held before. -/
theorem mem_enter {due : Nat} {item : α} {a : Agenda α} {x : Nat × α} :
    x ∈ a.enter due item ↔ x = (due, item) ∨ x ∈ a := by
  induction a with
  | nil => simp [enter]
  | cons head rest ih =>
    rw [enter]
    split
    · rw [List.mem_cons, ih, List.mem_cons]
      tauto
    · rw [List.mem_cons]

/-- Entering makes an agenda longer by one. -/
theorem length_enter (due : Nat) (item : α) (a : Agenda α) :
    (a.enter due item).length = a.length + 1 := by
  induction a with
  | nil => rfl
  | cons head rest ih =>
    rw [enter]
    split
    · rw [List.length_cons, ih]
      rfl
    · rfl

/-- An agenda stays in order when something is entered. -/
theorem Ordered.enter {a : Agenda α} (h : a.Ordered) (due : Nat) (item : α) :
    (a.enter due item).Ordered := by
  induction a with
  | nil => exact List.pairwise_singleton _ _
  | cons head rest ih =>
    obtain ⟨hhead, hrest⟩ := List.pairwise_cons.mp h
    rw [Agenda.enter]
    split
    · next hle =>
      refine List.pairwise_cons.mpr ⟨fun x hx => ?_, ih hrest⟩
      rcases mem_enter.mp hx with rfl | hx
      · exact hle
      · exact hhead x hx
    · next hlt =>
      refine List.pairwise_cons.mpr ⟨fun x hx => ?_, h⟩
      rcases List.mem_cons.mp hx with rfl | hx
      · exact Nat.le_of_not_le hlt
      · exact Nat.le_trans (Nat.le_of_not_le hlt) (hhead x hx)

/-- An agenda stays in order when something is dropped. -/
theorem Ordered.drop [DecidableEq α] {a : Agenda α} (h : a.Ordered) (item : α) :
    (Agenda.drop item a).Ordered := List.Pairwise.filter _ h

/-- If nothing is due by a time then all that is entered is due later. -/
theorem Ordered.lt_of_next? {a : Agenda α} (h : a.Ordered) {deadline : Nat}
    (hnone : a.next? deadline = none) {x : Nat × α} (hx : x ∈ a) : deadline < x.1 := by
  cases a with
  | nil => cases hx
  | cons head rest =>
    rw [next?] at hnone
    split at hnone
    · cases hnone
    · next hlt =>
      rcases List.mem_cons.mp hx with rfl | hx
      · omega
      · have hle := (List.pairwise_cons.mp h).1 x hx
        omega

end Agenda

-- ── Plans for a key ───────────────────────────────────────────────────────────

namespace Scheduler

/-- What an agenda plans for a key. -/
def plansOf (key : String) (a : Agenda Event) : Agenda Event :=
  a.filter fun x => x.2.key? = some key

/-- The key that an effect plans for or no longer plans for. -/
def Effect.key? : Effect → Option String
  | .arm key _ _ => some key
  | .disarm key _ => some key
  | .startRun key _ _ => some key
  | .startTask key _ _ => some key
  | .resolve _ => none

/-- Whether an effect enters something into the agenda. -/
def Effect.plans : Effect → Bool
  | .disarm _ _ => false
  | .resolve _ => false
  | _ => true

/-- The effect that drops an event from the agenda. -/
def Event.disarm? : Event → Option Effect
  | .timer key token => some (.disarm key token)
  | _ => none

/-- What is observed when an effect is performed. -/
def Effect.happening? : Effect → Option Happening
  | .startRun key _ reason => some (.started key reason)
  | .startTask key _ n => some (.taskStarted key n)
  | .resolve n => some (.resolved n)
  | _ => none

/-- What is observed of an event itself. -/
def Event.happening? : Event → Option Happening
  | .runEnded key _ outcome => some (.ended key outcome)
  | _ => none

/-- What is due first is planned for its own key. -/
theorem plansOf_cons (key : String) (x : Nat × Event) (a : Agenda Event) :
    plansOf key (x :: a) = if x.2.key? = some key then x :: plansOf key a else plansOf key a := by
  rw [plansOf, List.filter_cons]
  simp only [decide_eq_true_eq]
  rfl

/-- What is entered for one key leaves the plans for the others as they are. -/
theorem plansOf_enter_other {key : String} {e : Event} (hkey : e.key? ≠ some key)
    (a : Agenda Event) (due : Nat) : plansOf key (a.enter due e) = plansOf key a := by
  induction a with
  | nil => exact (plansOf_cons key (due, e) []).trans (if_neg hkey)
  | cons head rest ih =>
    rw [Agenda.enter]
    split
    · rw [plansOf_cons, plansOf_cons, ih]
    · rw [plansOf_cons, if_neg hkey]

/-- What is entered for a key without plans is all that is planned for it. -/
theorem plansOf_enter_self {key : String} {e : Event} (hkey : e.key? = some key)
    {a : Agenda Event} (hnone : plansOf key a = []) (due : Nat) :
    plansOf key (a.enter due e) = [(due, e)] := by
  induction a with
  | nil => exact (plansOf_cons key (due, e) []).trans (if_pos hkey)
  | cons head rest ih =>
    rw [Agenda.enter]
    split
    · rw [plansOf_cons] at hnone ⊢
      split at hnone
      · cases hnone
      · next hhead => rw [if_neg hhead, ih hnone]
    · rw [plansOf_cons, if_pos hkey, hnone]

/-- Plans are dropped with what the agenda drops. -/
theorem plansOf_filter (key : String) (p : Nat × Event → Bool) (a : Agenda Event) :
    plansOf key (a.filter p) = (plansOf key a).filter p := by
  rw [plansOf, plansOf, List.filter_filter, List.filter_filter]
  exact List.filter_congr fun x _ => Bool.and_comm _ _

theorem plansOf_drop (key : String) (e : Event) (a : Agenda Event) :
    plansOf key (a.drop e) = (plansOf key a).drop e := plansOf_filter key _ a

/-- What is dropped for one key leaves the plans for the others as they are. -/
theorem plansOf_drop_other {key : String} {e : Event} (hkey : e.key? ≠ some key)
    (a : Agenda Event) : plansOf key (a.drop e) = plansOf key a := by
  rw [plansOf_drop]
  refine List.filter_eq_self.mpr fun x hx => decide_eq_true ?_
  have hk : x.2.key? = some key := of_decide_eq_true (List.mem_filter.mp hx).2
  rintro rfl
  exact hkey hk

end Scheduler

-- ── Performing effects ────────────────────────────────────────────────────────

namespace Timeline

open Scheduler

variable {World : Type} {settings : SchedulerSettings} (w : Worker World) (t : Timeline World)

/-- Effects take no time. -/
theorem now_perform (f : Effect) : (perform w t f).now = t.now := by
  cases f <;> rfl

/-- Effects leave the scheduler alone. -/
theorem scheduler_perform (f : Effect) : (perform w t f).scheduler = t.scheduler := by
  cases f <;> rfl

/-- Any number of effects take no time. -/
theorem now_foldl (effects : List Effect) : (effects.foldl (perform w) t).now = t.now := by
  induction effects generalizing t with
  | nil => rfl
  | cons f rest ih => rw [List.foldl_cons, ih, now_perform]

theorem scheduler_foldl (effects : List Effect) :
    (effects.foldl (perform w) t).scheduler = t.scheduler := by
  induction effects generalizing t with
  | nil => rfl
  | cons f rest ih => rw [List.foldl_cons, ih, scheduler_perform]

/-- What is observed of effects is written to the log, at the time of the event. -/
theorem log_foldl (effects : List Effect) :
    (effects.foldl (perform w) t).log =
      t.log ++ (effects.filterMap Effect.happening?).map (Prod.mk t.now) := by
  induction effects generalizing t with
  | nil => exact (List.append_nil _).symm
  | cons f rest ih =>
    rw [List.foldl_cons, ih, now_perform]
    cases f with
    | arm | disarm => rfl
    | startRun | startTask | resolve => exact List.append_assoc _ [_] _

/-- What is in the agenda is not overdue, and each item is about a key. -/
def Upcoming (now : Nat) (a : Agenda Event) : Prop := ∀ x ∈ a, now ≤ x.1 ∧ x.2 ≠ .clear

/-- Performing an effect keeps the agenda in order, with nothing overdue. -/
theorem agenda_perform (f : Effect) (hordered : t.agenda.Ordered)
    (hupcoming : Upcoming t.now t.agenda) :
    (perform w t f).agenda.Ordered ∧ Upcoming t.now (perform w t f).agenda := by
  have henter : ∀ ms e, e ≠ .clear → (t.agenda.enter (t.now + ms) e).Ordered ∧
      Upcoming t.now (t.agenda.enter (t.now + ms) e) := by
    refine fun ms e he => ⟨hordered.enter _ _, fun x hx => ?_⟩
    rcases Agenda.mem_enter.mp hx with rfl | hx
    · exact ⟨Nat.le_add_right _ _, he⟩
    · exact hupcoming x hx
  cases f with
  | arm | startRun | startTask => exact henter _ _ fun h => nomatch h
  | disarm key token =>
    exact ⟨hordered.drop _, fun x hx => hupcoming x (List.mem_filter.mp hx).1⟩
  | resolve => exact ⟨hordered, hupcoming⟩

/-- Effects keep the agenda in order and ahead of the clock. -/
theorem agenda_foldl (effects : List Effect) (hordered : t.agenda.Ordered)
    (hupcoming : Upcoming t.now t.agenda) :
    (effects.foldl (perform w) t).agenda.Ordered ∧
      Upcoming t.now (effects.foldl (perform w) t).agenda := by
  induction effects generalizing t with
  | nil => exact ⟨hordered, hupcoming⟩
  | cons f rest ih =>
    obtain ⟨hordered', hupcoming'⟩ := agenda_perform w t f hordered hupcoming
    have hnow := now_perform w t f
    rw [List.foldl_cons, ← hnow]
    exact ih _ hordered' (by rw [hnow]; exact hupcoming')

/-- Effects leave the plans for other keys alone. -/
theorem plansOf_foldl_other {effects : List Effect} {key : String}
    (hother : ∀ f ∈ effects, f.key? ≠ some key) :
    plansOf key (effects.foldl (perform w) t).agenda = plansOf key t.agenda := by
  induction effects generalizing t with
  | nil => rfl
  | cons f rest ih =>
    have hf := hother f List.mem_cons_self
    rw [List.foldl_cons, ih _ fun g hg => hother g (List.mem_cons_of_mem _ hg)]
    cases f with
    | arm k token ms => exact plansOf_enter_other (e := .timer k token) hf _ _
    | disarm k token => exact plansOf_drop_other (e := .timer k token) hf _
    | startRun k epoch reason => exact plansOf_enter_other (e := .runEnded k epoch _) hf _ _
    | startTask k epoch n => exact plansOf_enter_other (e := .taskEnded k epoch n _) hf _ _
    | resolve => rfl

/-- Resolving requests enters nothing into the agenda. -/
theorem agenda_resolve (numbers : List Nat) :
    ((numbers.map .resolve).foldl (perform w) t).agenda = t.agenda := by
  induction numbers generalizing t with
  | nil => rfl
  | cons n rest ih => exact ih _

theorem agenda_observed (e : Event) : (t.observed e).agenda = t.agenda := by
  cases e <;> rfl

theorem now_observed (e : Event) : (t.observed e).now = t.now := by
  cases e <;> rfl

/-- What is observed of an event is written to the log. -/
theorem log_observed (e : Event) :
    (t.observed e).log = t.log ++ e.happening?.toList.map (Prod.mk t.now) := by
  cases e with
  | runEnded => rfl
  | _ => exact (List.append_nil _).symm

/-- Effects that enter nothing into the agenda leave what they do not disarm. -/
theorem agenda_disarm {effects : List Effect} (hquiet : ∀ f ∈ effects, f.plans = false) :
    (effects.foldl (perform w) t).agenda =
      t.agenda.filter fun x => x.2.disarm?.all fun f => f ∉ effects := by
  induction effects generalizing t with
  | nil =>
    refine (List.filter_eq_self.mpr fun x _ => ?_).symm
    cases x.2.disarm? <;> simp
  | cons f rest ih =>
    have hf := hquiet f List.mem_cons_self
    rw [List.foldl_cons, ih _ fun g hg => hquiet g (List.mem_cons_of_mem _ hg)]
    cases f with
    | arm | startRun | startTask => cases hf
    | disarm key token =>
      show (t.agenda.filter _).filter _ = _
      rw [List.filter_filter]
      refine List.filter_congr fun x _ => ?_
      obtain ⟨due, e⟩ := x
      cases e <;> simp [Event.disarm?, and_comm, not_or]
    | resolve n =>
      refine List.filter_congr fun x _ => ?_
      obtain ⟨due, e⟩ := x
      cases e <;> simp [Event.disarm?]

end Timeline

namespace Scheduler

/-- A clear enters nothing into the agenda. -/
theorem clear_plans (s : Scheduler) : ∀ f ∈ (clear s).2, f.plans = false := by
  intro f hf
  obtain ⟨⟨key, e⟩, _, hin⟩ := List.mem_flatMap.mp hf
  rcases List.mem_append.mp hin with hd | hr
  · simp only [Entry.disarm, Option.mem_toList, Option.map_eq_some_iff] at hd
    obtain ⟨token, _, rfl⟩ := hd
    rfl
  · obtain ⟨n, _, rfl⟩ := List.mem_map.mp hr
    rfl

/-- A clear drops the live timer of an entry. -/
theorem disarm_mem_clear {s : Scheduler} {key : String} {e : Entry} {token : Nat}
    (hget : s.entries.get? key = some e) (htimer : e.timer = some token) :
    .disarm key token ∈ (clear s).2 := by
  refine List.mem_flatMap.mpr ⟨(key, e), Table.mem_entries.mpr hget, ?_⟩
  exact List.mem_append_left _ (by simp [Entry.disarm, htimer])

/-- A run in flight outlives a clear. -/
@[simp] theorem Run.disarm?_awaited (r : Run) (outcome : RunOutcome) :
    (r.awaited outcome).disarm? = none := by
  unfold Run.awaited
  cases r.stage <;> rfl

/-- What is observed of what is seen. -/
def Sighting.happenings : Sighting → List Happening
  | .started key reason => [.started key reason]
  | .ended key outcome => [.ended key outcome]
  | .taskStarted key n => [.taskStarted key n]
  | .finished _ covered => covered.map .resolved
  | .cleared dropped => dropped.map .resolved
  | _ => []

theorem happenings_resolve (numbers : List Nat) :
    (numbers.map Effect.resolve).filterMap Effect.happening? = numbers.map .resolved := by
  rw [List.filterMap_map]
  exact List.filterMap_eq_map ▸ rfl

/-- What is seen of an event is what is observed of it and of its effects. -/
theorem happenings_seen {settings : SchedulerSettings} {s t : Scheduler} {event : Event}
    {effects : List Effect} (hmove : Move settings s event t effects) (hheeds : s.Heeds event) :
    (seen (s.requests + 1) event effects).flatMap Sighting.happenings =
      event.happening?.toList ++ effects.filterMap Effect.happening? := by
  have hclosing : ∀ (r : Run) (outcome : RunOutcome) (σ : Sighting),
      [r.closing outcome, σ].flatMap Sighting.happenings =
        (r.awaited outcome).happening?.toList ++ σ.happenings := by
    intro r outcome σ
    unfold Run.closing Run.awaited
    cases r.stage <;> simp [Sighting.happenings, Event.happening?]
  cases hmove with
  | opened | rearmed | queued | fired => rfl
  | nextTask =>
    rw [seen_nextTask, hclosing]
    rfl
  | ended outcome hr htasks hget hphase hnone hcovers =>
    rw [seen_ended hcovers, hclosing, happenings_resolve]
    rfl
  | @followed r e outcome hr htasks hget hphase hsome hcovers =>
    rw [seen_followed hcovers, hclosing]
    exact congrArg (_ ++ ·) (happenings_resolve r.waiters).symm
  | cleared =>
    have heach : ∀ (key : String) (e : Entry),
        (e.disarm key ++ e.waiters.map Effect.resolve).filterMap Effect.happening? =
          e.waiters.map .resolved := by
      intro key e
      rw [List.filterMap_append, happenings_resolve]
      unfold Entry.disarm
      cases e.timer <;> rfl
    show (resolvedBy (clear s).2).map Happening.resolved ++ [] =
      (s.entries.entries.flatMap _).filterMap _
    rw [List.append_nil, resolvedBy_clear, List.map_flatMap, List.filterMap_flatMap, Table.values,
      List.flatMap_map]
    exact congrArg (s.entries.entries.flatMap ·) (funext fun x => (heach x.1 x.2).symm)
  | ignored event hstale => exact absurd hheeds hstale

end Scheduler

-- ── Telling events ────────────────────────────────────────────────────────────

namespace Timeline

open Scheduler

variable {World : Type} (settings : SchedulerSettings) (w : Worker World) (t : Timeline World)
  (e : Event)

/-- Telling an event takes no time. -/
theorem now_tell : (tell settings w t e).now = t.now :=
  (now_foldl w _ _).trans (now_observed t e)

/-- A timeline that is told an event makes the step of its scheduler. -/
theorem scheduler_tell : (tell settings w t e).scheduler = (t.scheduler.step settings e).1 :=
  scheduler_foldl w _ _

/-- The agenda stays in order and ahead of the clock when an event is told. -/
theorem agenda_tell (hordered : t.agenda.Ordered) (hupcoming : Upcoming t.now t.agenda) :
    (tell settings w t e).agenda.Ordered ∧ Upcoming t.now (tell settings w t e).agenda := by
  rw [← agenda_observed t e] at hordered hupcoming
  rw [← now_observed t e] at hupcoming ⊢
  exact agenda_foldl w { t.observed e with scheduler := (t.scheduler.step settings e).1 } _
    hordered hupcoming

/-- The log notes what is observed of an event and of its effects. -/
theorem log_tell_eq :
    (tell settings w t e).log = t.log ++ (e.happening?.toList ++
      (t.scheduler.step settings e).2.filterMap Effect.happening?).map (Prod.mk t.now) := by
  have hnow : { t.observed e with scheduler := (t.scheduler.step settings e).1 }.now = t.now :=
    now_observed t e
  refine (log_foldl w _ _).trans ?_
  rw [hnow, List.map_append, ← List.append_assoc]
  exact congrArg (· ++ _) (log_observed t e)

/-- The log notes what is seen of an event that is current. -/
theorem log_tell (hs : t.scheduler.Sound) (hheeds : t.scheduler.Heeds e) :
    (tell settings w t e).log = t.log ++
      ((seen (t.scheduler.requests + 1) e (t.scheduler.step settings e).2).flatMap
        Sighting.happenings).map (Prod.mk t.now) := by
  rw [log_tell_eq, happenings_seen (step_move settings hs e) hheeds]

end Timeline

end ProofLedger
