import Mathlib.Data.Finset.Card
import ProofLedger.Proofs.Scheduler.Moves

/-!
# What holds in every state of the scheduler

An event changes how its own key stands and leaves the other keys alone; only a clear reaches
them all. So every state that events lead to is sound (`sound_after`), and with the timers that
the effects ask for in view, every key has the timer and the run that its phase promises
(`consistent_after`).
-/

namespace ProofLedger.Scheduler

variable {settings : SchedulerSettings}

-- ── Frames ────────────────────────────────────────────────────────────────────

/-- The key that an event is about; a clear is about all of them. -/
def Event.key? : Event → Option String
  | .schedule r => some r.key
  | .timer key _ => some key
  | .runEnded key _ _ => some key
  | .taskEnded key _ _ _ => some key
  | .clear => none

/-- Only a clear is about no key. -/
theorem Event.exists_key {e : Event} (h : e ≠ .clear) : ∃ key, e.key? = some key := by
  cases e with
  | clear => exact absurd rfl h
  | _ => exact ⟨_, rfl⟩

/-- What a run waits for is about its key. -/
theorem Run.awaited_key? (r : Run) (outcome : RunOutcome) :
    (r.awaited outcome).key? = some r.key := by
  unfold Run.awaited
  cases r.stage <;> rfl

/-- No run waits for a clear. -/
theorem Run.awaited_ne_clear (r : Run) (outcome : RunOutcome) : r.awaited outcome ≠ .clear := by
  intro h
  have hkey := congrArg Event.key? h
  rw [Run.awaited_key?] at hkey
  cases hkey

/-- An event leaves the entries and runs of other keys as they are. -/
theorem Move.frame {s t : Scheduler} {event : Event} {effects : List Effect} (hs : s.Sound)
    (h : Move settings s event t effects) (hclear : event ≠ .clear) {key : String}
    (hkey : event.key? ≠ some key) :
    t.entries.get? key = s.entries.get? key ∧ t.flight? key = s.flight? key := by
  cases h with
  | opened r hidle =>
    have hne : r.key ≠ key := fun he => hkey (congrArg some he)
    exact ⟨Table.get?_insert_ne _ hne _, rfl⟩
  | rearmed r hget hphase =>
    have hne : r.key ≠ key := fun he => hkey (congrArg some he)
    exact ⟨Table.get?_insert_ne _ hne _, rfl⟩
  | queued r hget hphase =>
    have hne : r.key ≠ key := fun he => hkey (congrArg some he)
    exact ⟨Table.get?_insert_ne _ hne _, rfl⟩
  | @fired k e hget hphase =>
    have hne : k ≠ key := fun he => hkey (congrArg some he)
    have hnone := (hs.of_debouncing hget hphase).1
    refine ⟨Table.get?_insert_ne _ hne _, ?_⟩
    refine Eq.trans ((hs.flight?_append (r := e.run k) hnone rfl).2 key) ?_
    exact if_neg fun he => hne he.symm
  | nextTask outcome hr htasks =>
    rw [Run.awaited_key?] at hkey
    refine ⟨rfl, ?_⟩
    refine Eq.trans (hs.flight?_advanced hr rfl key) ?_
    exact if_neg fun he => hkey (congrArg some he.symm)
  | ended outcome hr htasks hget hphase hnone hcovers =>
    rw [Run.awaited_key?] at hkey
    refine ⟨Table.get?_erase_ne _ fun he => hkey (congrArg some he), ?_⟩
    refine Eq.trans (hs.flight?_without hr rfl key) ?_
    exact if_neg fun he => hkey (congrArg some he.symm)
  | followed outcome hr htasks hget hphase hsome hcovers =>
    rw [Run.awaited_key?] at hkey
    refine ⟨Table.get?_insert_ne _ (fun he => hkey (congrArg some he)) _, ?_⟩
    refine Eq.trans (hs.flight?_without hr rfl key) ?_
    exact if_neg fun he => hkey (congrArg some he.symm)
  | cleared => exact absurd rfl hclear
  | ignored event hstale => exact ⟨rfl, rfl⟩

/-- To clear is the only move that a clear makes. -/
theorem Move.of_clear {s t : Scheduler} {effects : List Effect}
    (h : Move settings s .clear t effects) : t = (clear s).1 ∧ effects = (clear s).2 := by
  generalize hevent : Event.clear = event at h
  cases h with
  | cleared => exact ⟨rfl, rfl⟩
  | ignored _ hstale => subst hevent; exact absurd trivial hstale
  | @nextTask r outcome | @ended r _ outcome | @followed r _ outcome =>
    exact absurd hevent.symm (r.awaited_ne_clear outcome)
  | _ => cases hevent

/-- A clear keeps the entries of running keys, without the requests that wait, and no others. -/
theorem get?_clear (s : Scheduler) (key : String) :
    (clear s).1.entries.get? key =
      (s.entries.get? key).bind fun e => if e.phase = .running then some e.cleared else none := by
  rw [clear]
  simp only [Table.get?_filterMap]
  congr 1
  funext e
  cases hp : e.phase <;> simp [Entry.cleared, Phase.after, hp]

-- ── Changes of a key ──────────────────────────────────────────────────────────

/-- How an event changes the entry and the run in flight of the key that it is about, in a
    state. -/
inductive Change (settings : SchedulerSettings) (s : Scheduler) (key : String) :
    Event → Option Entry → Option Run → Option Entry → Option Run → List Effect → Prop where
  | opened (r : SyncRequest) (epoch token : Nat) (hkey : r.key = key) :
    Change settings s key (.schedule r) none none
      (some (((Entry.fresh epoch r.reason).join (s.requests + 1) r).armed token)) none
      [.arm key token (settings.delayOf r.reason r.overrideMs)]
  | rearmed (r : SyncRequest) (token : Nat) {e : Entry} (hkey : r.key = key)
    (hphase : e.phase = .debouncing) :
    Change settings s key (.schedule r) (some e) none
      (some ((e.join (s.requests + 1) r).armed token)) none
      [.disarm key e.token, .arm key token (settings.delayOf r.reason r.overrideMs)]
  | queued (r : SyncRequest) {e : Entry} {q : Run} (hkey : r.key = key)
    (hphase : e.phase = .running) :
    Change settings s key (.schedule r) (some e) (some q)
      (some (e.join (s.requests + 1) r)) (some q) []
  | fired {e : Entry} (hphase : e.phase = .debouncing) :
    Change settings s key (.timer key e.token) (some e) none
      (some e.fired) (some (e.run key)) [.startRun key e.epoch e.reason]
  | nextTask {e : Entry} {r : Run} {n : Nat} {rest : List Nat} (outcome : RunOutcome)
    (hkey : r.key = key) (htasks : r.tasks = n :: rest) :
    Change settings s key (r.awaited outcome) (some e) (some r)
      (some e) (some { r with stage := .task n, tasks := rest }) [.startTask key r.epoch n]
  | ended {e : Entry} {r : Run} (outcome : RunOutcome) (hkey : r.key = key)
    (htasks : r.tasks = []) (hnone : e.waiters = []) (hcovers : r.waiters ≠ []) :
    Change settings s key (r.awaited outcome) (some e) (some r) none none
      (r.waiters.map .resolve)
  | followed {e : Entry} {r : Run} (outcome : RunOutcome) (token : Nat) (hkey : r.key = key)
    (htasks : r.tasks = []) (hsome : e.waiters ≠ []) (hcovers : r.waiters ≠ []) :
    Change settings s key (r.awaited outcome) (some e) (some r)
      (some ({ e with phase := .debouncing, queued := false }.armed token)) none
      (.arm key token (settings.delayOf e.reason e.overrideMs) :: r.waiters.map .resolve)
  | ignored {event : Event} (hstale : ¬ s.Heeds event) (e : Option Entry)
    (r : Option Run) : Change settings s key event e r e r []

/-- An event changes its key in one of the ways above. -/
theorem Move.change {s t : Scheduler} {event : Event} {effects : List Effect} (hs : s.Sound)
    (h : Move settings s event t effects) {key : String} (hkey : event.key? = some key) :
    Change settings s key event (s.entries.get? key) (s.flight? key)
      (t.entries.get? key) (t.flight? key) effects := by
  cases h with
  | opened r hidle =>
    cases hkey
    have hflight : s.flight? r.key = none := by
      have hstanding := hs.standing r.key
      rw [hidle] at hstanding
      generalize s.flight? r.key = f at hstanding
      cases hstanding
      rfl
    show Change settings _ r.key _ _ (s.flight? r.key) _ (s.flight? r.key) _
    rw [hidle, hflight, Table.get?_insert_self]
    exact .opened r _ _ rfl
  | @rearmed r e hget hphase =>
    cases hkey
    show Change settings _ r.key _ _ (s.flight? r.key) _ (s.flight? r.key) _
    rw [hget, (hs.of_debouncing hget hphase).1, Table.get?_insert_self]
    exact .rearmed r _ rfl hphase
  | @queued r e hget hphase =>
    cases hkey
    obtain ⟨q, hq⟩ := hs.of_running hget hphase
    show Change settings _ r.key _ _ (s.flight? r.key) _ (s.flight? r.key) _
    rw [hget, hq, Table.get?_insert_self]
    exact .queued r rfl hphase
  | @fired k e hget hphase =>
    cases hkey
    have hnone := (hs.of_debouncing hget hphase).1
    have hflight := (hs.flight?_append (r := e.run key)
      (t := { s with entries := s.entries.insert key e.fired, runs := s.runs ++ [e.run key] })
      hnone rfl).2 key
    rw [if_pos (show key = (e.run key).key from rfl)] at hflight
    rw [hflight, hget, hnone, Table.get?_insert_self]
    exact .fired hphase
  | @nextTask r outcome n rest hr htasks =>
    rw [Run.awaited_key?] at hkey
    cases hkey
    obtain ⟨e, hget, _⟩ := hs.of_flight hr
    rw [hs.flight?_advanced (t := { s with runs := advanced s.runs r n rest }) hr rfl r.key,
      if_pos rfl]
    show Change settings _ r.key _ _ _ (s.entries.get? r.key) _ _
    rw [hget, hr]
    exact .nextTask outcome rfl htasks
  | @ended r e outcome hr htasks hget hphase hnone hcovers =>
    rw [Run.awaited_key?] at hkey
    cases hkey
    show Change settings _ r.key _ _ _ _ (flight? { s with runs := without s.runs r } r.key) _
    rw [hs.flight?_without (t := { s with runs := without s.runs r }) hr rfl r.key, if_pos rfl,
      Table.get?_erase_self, hget, hr]
    exact .ended outcome rfl htasks hnone hcovers
  | @followed r e outcome hr htasks hget hphase hsome hcovers =>
    rw [Run.awaited_key?] at hkey
    cases hkey
    show Change settings _ r.key _ _ _ _ (flight? { s with runs := without s.runs r } r.key) _
    rw [hs.flight?_without (t := { s with runs := without s.runs r }) hr rfl r.key, if_pos rfl,
      Table.get?_insert_self, hget, hr]
    exact .followed outcome _ rfl htasks hsome hcovers
  | cleared => cases hkey
  | ignored event hstale => exact .ignored hstale _ _

-- ── Soundness ─────────────────────────────────────────────────────────────────

/-- The scheduler starts in a sound state. -/
theorem sound_start : Sound {} where
  distinct := List.nodup_nil
  standing _ := .idle

/-- No key gets a second run. -/
private theorem distinct_move {s t : Scheduler} {event : Event} {effects : List Effect}
    (hs : s.Sound) (h : Move settings s event t effects) : (t.runs.map (·.key)).Nodup := by
  cases h with
  | @fired key e hget hphase =>
    have hnone := (hs.of_debouncing hget hphase).1
    exact (hs.flight?_append (r := e.run key) hnone rfl).1
  | nextTask outcome hr htasks =>
    show ((advanced s.runs _ _ _).map (·.key)).Nodup
    rw [keys_advanced]
    exact hs.distinct
  | ended outcome hr => exact distinct_without hs.distinct _
  | followed outcome hr => exact distinct_without hs.distinct _
  | _ => exact hs.distinct

/-- A clear leaves keys with a run, or idle. -/
private theorem standing_clear {s : Scheduler} (hs : s.Sound) (key : String) :
    Standing ((clear s).1.entries.get? key) ((clear s).1.flight? key) := by
  have h := hs.standing key
  rw [get?_clear]
  show Standing _ (s.flight? key)
  generalize s.entries.get? key = g at h
  generalize s.flight? key = f at h
  cases h with
  | idle => exact .idle
  | debouncing hphase =>
    rw [Option.bind_some, if_neg (by rw [hphase]; decide)]
    exact .idle
  | running hphase htimer hqueued htasks hepoch hcovers =>
    rw [Option.bind_some, if_pos hphase]
    refine .running ?_ rfl ?_ ?_ hepoch hcovers
    · simp [Entry.cleared, Phase.after, hphase]
    · simp [Entry.cleared]
    · simp [Entry.cleared]

/-- How the key of an event stands after it. -/
private theorem standing_own {s : Scheduler} {key : String} {event : Event}
    {e e' : Option Entry} {r r' : Option Run} {effects : List Effect} (h : Standing e r)
    (hchange : Change settings s key event e r e' r' effects) : Standing e' r' := by
  cases hchange with
  | opened => exact .debouncing rfl rfl (by simp [Entry.armed, Entry.join])
  | rearmed q token hkey hphase =>
    refine .debouncing ?_ rfl ?_
    · simp [Entry.armed, Entry.join, Phase.after, hphase]
    · simp [Entry.armed, Entry.join]
  | queued q hkey hphase =>
    cases h with
    | running _ htimer _ _ hepoch hcovers =>
      refine .running ?_ htimer ?_ ?_ hepoch hcovers
      · simp [Entry.join, Phase.after, hphase]
      · simp [Entry.join, hphase]
      · simp [Entry.join]
  | fired hphase =>
    cases h with
    | debouncing _ _ hwaiters =>
      refine .running ?_ rfl ?_ ?_ rfl hwaiters
      · simp [Entry.fired, Phase.after, hphase]
      · simp [Entry.fired]
      · simp [Entry.fired]
  | nextTask outcome hkey htasks =>
    cases h with
    | running hphase htimer hqueued hdue hepoch hcovers =>
      exact .running hphase htimer hqueued hdue hepoch hcovers
  | ended => exact .idle
  | followed outcome token hkey htasks hsome hcovers => exact .debouncing rfl rfl hsome
  | ignored => exact h

/-- Every event keeps the state sound. -/
theorem Sound.move {s t : Scheduler} {event : Event} {effects : List Effect} (hs : s.Sound)
    (h : Move settings s event t effects) : t.Sound where
  distinct := distinct_move hs h
  standing key := by
    by_cases hclear : event = .clear
    · subst hclear
      obtain ⟨rfl, rfl⟩ := h.of_clear
      exact standing_clear hs key
    · by_cases hkey : event.key? = some key
      · exact standing_own (hs.standing key) (h.change hs hkey)
      · obtain ⟨hget, hflight⟩ := h.frame hs hclear hkey
        rw [hget, hflight]
        exact hs.standing key

-- ── Histories ─────────────────────────────────────────────────────────────────

/-- The state that events lead to. -/
def after (settings : SchedulerSettings) (s : Scheduler) (events : List Event) : Scheduler :=
  events.foldl (fun s e => (s.step settings e).1) s

/-- Events, each with the effects that it asks for. -/
def told (settings : SchedulerSettings) : Scheduler → List Event → List (Event × List Effect)
  | _, [] => []
  | s, e :: rest => (e, (s.step settings e).2) :: told settings (s.step settings e).1 rest

/-- The state after one more event. -/
@[simp] theorem after_concat (s : Scheduler) (events : List Event) (e : Event) :
    after settings s (events ++ [e]) = ((after settings s events).step settings e).1 := by
  simp [after]

/-- What is told after other events is told to the state that they leave. -/
theorem told_append (s : Scheduler) (a b : List Event) :
    told settings s (a ++ b) = told settings s a ++ told settings (after settings s a) b := by
  induction a generalizing s with
  | nil => rfl
  | cons e a ih => rw [List.cons_append, told, told, ih]; rfl

@[simp] theorem told_concat (s : Scheduler) (events : List Event) (e : Event) :
    told settings s (events ++ [e]) =
      told settings s events ++ [(e, ((after settings s events).step settings e).2)] :=
  told_append s events [e]

/-- The scheduler is sound after all events. -/
theorem sound_after (settings : SchedulerSettings) (events : List Event) :
    (after settings {} events).Sound := by
  induction events using List.reverseRecOn with
  | nil => exact sound_start
  | append_singleton events e ih =>
    rw [after_concat]
    exact ih.move (step_move settings ih e)

-- ── Timers ────────────────────────────────────────────────────────────────────

/-- The live timers once an event is told: one that expires is no longer live. -/
def Event.onTimers (timers : List (String × Nat)) : Event → List (String × Nat)
  | .timer key token => timers.filter (· ≠ (key, token))
  | _ => timers

/-- The live timers after an effect. -/
def Effect.onTimers (timers : List (String × Nat)) : Effect → List (String × Nat)
  | .arm key token _ => timers ++ [(key, token)]
  | .disarm key token => timers.filter (· ≠ (key, token))
  | _ => timers

/-- The timers that were armed and have neither been dropped nor expired, by key and token. -/
def liveTimers (history : List (Event × List Effect)) : List (String × Nat) :=
  history.foldl (fun timers h => h.2.foldl Effect.onTimers (h.1.onTimers timers)) []

/-- The timers of a key among others. -/
def timersOf (key : String) (timers : List (String × Nat)) : List (String × Nat) :=
  timers.filter fun t => t.1 = key

/-- The timer that an entry of a key promises. -/
def promised (key : String) (e : Option Entry) : List (String × Nat) :=
  ((e.bind (·.timer)).map (Prod.mk key)).toList

/-- A timer that is armed is one of its key. -/
theorem timersOf_arm (key k : String) (token ms : Nat) (timers : List (String × Nat)) :
    timersOf key (Effect.onTimers timers (.arm k token ms)) =
      timersOf key timers ++ if k = key then [(k, token)] else [] := by
  by_cases h : k = key <;> simp [timersOf, Effect.onTimers, h]

/-- A timer that is armed is none of the other keys. -/
theorem timersOf_arm_other {key k : String} (h : k ≠ key) (token ms : Nat)
    (timers : List (String × Nat)) :
    timersOf key (Effect.onTimers timers (.arm k token ms)) = timersOf key timers := by
  rw [timersOf_arm, if_neg h, List.append_nil]

/-- A timer that is dropped is dropped from those of its key. -/
theorem timersOf_drop (key k : String) (token : Nat) (timers : List (String × Nat)) :
    timersOf key (timers.filter (· ≠ (k, token))) =
      (timersOf key timers).filter (· ≠ (k, token)) := by
  rw [timersOf, timersOf, List.filter_filter, List.filter_filter]
  congr 1
  funext t
  exact Bool.and_comm _ _

/-- A timer that is dropped is dropped from those of no other key. -/
theorem timersOf_drop_other {key k : String} (h : k ≠ key) (token : Nat)
    (timers : List (String × Nat)) :
    timersOf key (timers.filter (· ≠ (k, token))) = timersOf key timers := by
  rw [timersOf_drop]
  refine List.filter_eq_self.mpr fun t ht => ?_
  have hk : t.1 = key := by simpa [timersOf] using (List.mem_filter.mp ht).2
  have hne : t ≠ (k, token) := fun he => h (by rw [← hk, he])
  simpa using hne

/-- Resolving requests leaves timers alone. -/
theorem foldl_resolve (numbers : List Nat) (timers : List (String × Nat)) :
    (numbers.map Effect.resolve).foldl Effect.onTimers timers = timers := by
  induction numbers with
  | nil => rfl
  | cons n rest ih => exact ih

/-- Effects that arm nothing leave exactly the timers that they do not drop. -/
theorem mem_foldl_onTimers {effects : List Effect} (hno : ∀ k token ms, .arm k token ms ∉ effects)
    {timers : List (String × Nat)} {t : String × Nat} :
    t ∈ effects.foldl Effect.onTimers timers ↔ t ∈ timers ∧ .disarm t.1 t.2 ∉ effects := by
  induction effects generalizing timers with
  | nil => simp
  | cons f rest ih =>
    have hrest : ∀ k token ms, .arm k token ms ∉ rest := fun k token ms h =>
      hno k token ms (List.mem_cons_of_mem _ h)
    rw [List.foldl_cons, ih hrest]
    cases f with
    | arm k token ms => exact absurd List.mem_cons_self (hno k token ms)
    | disarm k token =>
      obtain ⟨a, b⟩ := t
      simp only [Effect.onTimers, List.mem_filter, List.mem_cons, Effect.disarm.injEq,
        decide_eq_true_eq, ne_eq, Prod.mk.injEq]
      tauto
    | _ => simp [Effect.onTimers]

/-- A clear drops the timers that it makes useless. -/
private theorem timers_clear {s : Scheduler} {timers : List (String × Nat)}
    (h : ∀ key, timersOf key timers = promised key (s.entries.get? key)) (key : String) :
    timersOf key ((clear s).2.foldl Effect.onTimers timers) =
      promised key ((clear s).1.entries.get? key) := by
  have hno : ∀ k token ms, .arm k token ms ∉ (clear s).2 := by
    intro k token ms hmem
    obtain ⟨⟨a, e⟩, _, hin⟩ := List.mem_flatMap.mp hmem
    rcases List.mem_append.mp hin with hd | hr
    · simp [Entry.disarm] at hd
    · simp at hr
  have hleft : timersOf key ((clear s).2.foldl Effect.onTimers timers) = [] := by
    rw [List.eq_nil_iff_forall_not_mem]
    intro t ht
    obtain ⟨hlive, hk⟩ := List.mem_filter.mp ht
    obtain ⟨hin, hkept⟩ := (mem_foldl_onTimers hno).mp hlive
    have hp : t ∈ promised key (s.entries.get? key) := by
      rw [← h key]
      exact List.mem_filter.mpr ⟨hin, hk⟩
    simp only [promised, Option.mem_toList, Option.map_eq_some_iff, Option.bind_eq_some_iff] at hp
    obtain ⟨token, ⟨e, hget, htimer⟩, rfl⟩ := hp
    refine hkept (List.mem_flatMap.mpr ⟨(key, e), Table.mem_entries.mpr hget, ?_⟩)
    exact List.mem_append_left _ (by simp [Entry.disarm, htimer])
  rw [hleft, get?_clear]
  cases s.entries.get? key with
  | none => rfl
  | some e =>
    by_cases hp : e.phase = .running <;> simp [promised, hp, Entry.cleared]

/-- A timer that is not the live one of its key is of no account when it expires. -/
private theorem timers_stale {s : Scheduler} (hs : s.Sound) {event : Event}
    (hstale : ¬ s.Heeds event) {timers : List (String × Nat)}
    (h : ∀ key, timersOf key timers = promised key (s.entries.get? key)) (key : String) :
    timersOf key (event.onTimers timers) = timersOf key timers := by
  cases event with
  | timer k token =>
    show timersOf key (timers.filter _) = _
    by_cases hk : k = key
    · subst hk
      rw [timersOf_drop, h k]
      refine List.filter_eq_self.mpr fun t ht => ?_
      simp only [promised, Option.mem_toList, Option.map_eq_some_iff,
        Option.bind_eq_some_iff] at ht
      obtain ⟨live, ⟨e, hget, htimer⟩, rfl⟩ := ht
      have hne : live ≠ token := by
        rcases hs.phase_of_get? hget with hdeb | hrun
        · have harmed := (hs.of_debouncing hget hdeb).2.1
          rw [htimer] at harmed
          cases harmed
          exact fun he => hstale ⟨e, hget, hdeb, he⟩
        · obtain ⟨r, hr⟩ := hs.of_running hget hrun
          obtain ⟨a, ha, _, hnone, _⟩ := hs.of_flight hr
          rw [hget] at ha
          cases ha
          rw [htimer] at hnone
          cases hnone
      simpa using hne
    · exact timersOf_drop_other hk token timers
  | _ => rfl

/-- The end of the work of a run leaves timers alone. -/
theorem Run.onTimers_awaited (r : Run) (outcome : RunOutcome) (timers : List (String × Nat)) :
    (r.awaited outcome).onTimers timers = timers := by
  unfold Run.awaited
  cases r.stage <;> rfl

section Timers

variable {s : Scheduler} {timers timers' : List (String × Nat)} {k : String}
  (h : ∀ key, timersOf key timers = promised key (s.entries.get? key))

include h

/-- Timers keep step with an entry that is written if those of its key do, and those of the other
    keys stay. -/
private theorem timers_insert {e : Entry} (hown : timersOf k timers' = promised k (some e))
    (hother : ∀ key, k ≠ key → timersOf key timers' = timersOf key timers) (key : String) :
    timersOf key timers' = promised key ((s.entries.insert k e).get? key) := by
  by_cases hk : k = key
  · subst hk
    rw [hown, Table.get?_insert_self]
  · rw [hother key hk, h key, Table.get?_insert_ne _ hk]

/-- The timer of an entry that waits is the only one of its key. -/
private theorem timersOf_drop_live {e : Entry} (hs : s.Sound)
    (hget : s.entries.get? k = some e) (hphase : e.phase = .debouncing) :
    timersOf k (timers.filter (· ≠ (k, e.token))) = [] := by
  have hlive : promised k (some e) = [(k, e.token)] := by
    simp [promised, (hs.of_debouncing hget hphase).2.1]
  rw [timersOf_drop, h k, hget, hlive]
  simp

/-- A key with a run in flight has no timer. -/
private theorem timersOf_flight {r : Run} (hs : s.Sound) (hr : s.flight? k = some r) :
    timersOf k timers = [] := by
  obtain ⟨a, ha, _, htimer, _⟩ := hs.of_flight hr
  rw [h k, ha]
  simp [promised, htimer]

/-- Every event keeps the live timers in step with the entries. -/
theorem timers_move {t : Scheduler} {event : Event} {effects : List Effect} (hs : s.Sound)
    (hmove : Move settings s event t effects) (key : String) :
    timersOf key (effects.foldl Effect.onTimers (event.onTimers timers)) =
      promised key (t.entries.get? key) := by
  cases hmove with
  | opened r hidle =>
    rw [List.foldl_cons, List.foldl_nil]
    refine timers_insert h ?_ (fun key hk => timersOf_arm_other hk _ _ timers) key
    rw [timersOf_arm, if_pos rfl]
    show timersOf r.key timers ++ _ = _
    rw [h r.key, hidle]
    rfl
  | @rearmed r e hget hphase =>
    rw [List.foldl_cons, List.foldl_cons, List.foldl_nil]
    refine timers_insert h ?_ (fun key hk =>
      (timersOf_arm_other hk _ _ _).trans (timersOf_drop_other hk _ timers)) key
    rw [timersOf_arm, if_pos rfl]
    show timersOf r.key (timers.filter _) ++ _ = _
    rw [timersOf_drop_live h hs hget hphase]
    rfl
  | @queued r e hget hphase =>
    refine timers_insert h ?_ (fun key _ => rfl) key
    show timersOf r.key timers = _
    rw [h r.key, hget]
    rfl
  | @fired k e hget hphase =>
    refine timers_insert h ?_ (fun key hk => timersOf_drop_other hk _ timers) key
    exact timersOf_drop_live h hs hget hphase
  | nextTask outcome hr htasks =>
    rw [Run.onTimers_awaited]
    exact h key
  | @ended r e outcome hr htasks hget hphase hnone hcovers =>
    rw [Run.onTimers_awaited, foldl_resolve]
    by_cases hk : r.key = key
    · subst hk
      rw [timersOf_flight h hs hr, Table.get?_erase_self]
      rfl
    · rw [Table.get?_erase_ne _ hk]
      exact h key
  | @followed r e outcome hr htasks hget hphase hsome hcovers =>
    rw [Run.onTimers_awaited, List.foldl_cons, foldl_resolve]
    refine timers_insert h ?_ (fun key hk => timersOf_arm_other hk _ _ timers) key
    rw [timersOf_arm, if_pos rfl, timersOf_flight h hs hr]
    rfl
  | cleared => exact timers_clear h key
  | ignored event hstale =>
    rw [← h key]
    exact timers_stale hs hstale h key

end Timers

/-- After all events the live timer of a key is the one that its entry promises. -/
theorem timersOf_liveTimers (settings : SchedulerSettings) (events : List Event) (key : String) :
    timersOf key (liveTimers (told settings {} events)) =
      promised key ((after settings {} events).entries.get? key) := by
  induction events using List.reverseRecOn generalizing key with
  | nil => rfl
  | append_singleton events e ih =>
    have hsound := sound_after settings events
    rw [after_concat, told_concat, liveTimers, List.foldl_append]
    exact timers_move ih hsound (step_move settings hsound e) key

-- ── The invariant ─────────────────────────────────────────────────────────────

/-- What holds of a scheduler and the live timers after any events. -/
structure Consistent (s : Scheduler) (timers : List (String × Nat)) : Prop where
  /-- a key has at most one run in flight -/
  single_flight : ∀ key, (s.runs.filter fun r => r.key = key).length ≤ 1
  /-- a run is in flight exactly if the entry of its key is running under its epoch -/
  flight_iff : ∀ key epoch, (∃ r ∈ s.runs, r.key = key ∧ r.epoch = epoch) ↔
    ∃ e, s.entries.get? key = some e ∧ e.phase = .running ∧ e.epoch = epoch
  /-- no idle entry is stored -/
  never_idle : ∀ key e, s.entries.get? key = some e → e.phase = .debouncing ∨ e.phase = .running
  /-- the number of active keys is the number of keys that are not idle -/
  active_keys : ∃ keys : Finset String,
    (∀ key, key ∈ keys ↔ s.phase key ≠ .idle) ∧ keys.card = s.activeKeys
  /-- a debouncing key has one live timer, that of its token, and a request that waits -/
  debouncing : ∀ key e, s.entries.get? key = some e → e.phase = .debouncing →
    e.timer = some e.token ∧ timersOf key timers = [(key, e.token)] ∧ e.waiters ≠ []
  /-- a running key has no timer and is queued exactly if requests wait -/
  running : ∀ key e, s.entries.get? key = some e → e.phase = .running →
    e.timer = none ∧ timersOf key timers = [] ∧ (e.queued = true ↔ e.waiters ≠ [])
  /-- an idle key has no timer -/
  idle : ∀ key, s.phase key = .idle → timersOf key timers = []
  /-- tasks only come with requests that wait -/
  tasked : ∀ key e, s.entries.get? key = some e → e.tasks ≠ [] → e.waiters ≠ []
  /-- when a run has left the runs in flight, its key is found running under its epoch -/
  finishes : ∀ r ∈ s.runs, ∃ e,
    ({ s with runs := without s.runs r } : Scheduler).entries.get? r.key = some e ∧
      e.epoch = r.epoch ∧ e.phase = .running

/-- A key has at most one run in flight. -/
theorem Sound.single_flight {s : Scheduler} (hs : s.Sound) (key : String) :
    (s.runs.filter fun r => r.key = key).length ≤ 1 := by
  have hnodup : ((s.runs.filter fun r => r.key = key).map (·.key)).Nodup :=
    hs.distinct.sublist (List.filter_sublist.map _)
  have hall : ∀ k ∈ (s.runs.filter fun r => r.key = key).map (·.key), k = key := by
    intro k hk
    obtain ⟨r, hr, rfl⟩ := List.mem_map.mp hk
    simpa using (List.mem_filter.mp hr).2
  have hlen := List.nodup_iff_count_le_one.mp hnodup key
  rw [List.count_eq_length.mpr fun k hk => (hall k hk).symm, List.length_map] at hlen
  exact hlen

/-- The keys that are not idle are those that entries are stored for. -/
theorem Sound.mem_keys {s : Scheduler} (hs : s.Sound) (key : String) :
    key ∈ s.entries.keys ↔ s.phase key ≠ .idle := by
  have hkeys : key ∈ s.entries.keys ↔ ∃ e, s.entries.get? key = some e := by
    simp only [Table.keys, List.mem_map, ← Table.mem_entries]
    constructor
    · rintro ⟨⟨k, e⟩, hmem, rfl⟩
      exact ⟨e, hmem⟩
    · rintro ⟨e, hmem⟩
      exact ⟨(key, e), hmem, rfl⟩
  rw [hkeys, Scheduler.phase]
  cases hget : s.entries.get? key with
  | none => simp
  | some e =>
    rcases hs.phase_of_get? hget with h | h <;> simp [h]

theorem nodup_keys {α : Type} (t : Table α) : t.keys.Nodup := by
  rw [List.nodup_iff_pairwise_ne]
  refine (Keyed.sorted_iff_keys.mp t.sorted).imp fun {a b} hab heq => ?_
  exact String.lt_irrefl b (heq ▸ hab)

/-- Whatever the scheduler is told, and in whatever order, it stays consistent: also by timers
    that were superseded or dropped and yet expire, and by a clear in the middle of a run. -/
theorem consistent_after (settings : SchedulerSettings) (events : List Event) :
    Consistent (after settings {} events) (liveTimers (told settings {} events)) := by
  have hs := sound_after settings events
  have htimers := timersOf_liveTimers settings events
  generalize after settings {} events = s at hs htimers
  generalize liveTimers (told settings {} events) = timers at htimers
  constructor
  case single_flight => exact hs.single_flight
  case flight_iff =>
    intro key epoch
    constructor
    · rintro ⟨r, hr, rfl, rfl⟩
      obtain ⟨e, hget, hphase, _, _, _, hepoch, _⟩ := hs.of_flight (hs.flight?_of_mem hr)
      exact ⟨e, hget, hphase, hepoch⟩
    · rintro ⟨e, hget, hphase, rfl⟩
      obtain ⟨r, hr⟩ := hs.of_running hget hphase
      obtain ⟨a, ha, _, _, _, _, hepoch, _⟩ := hs.of_flight hr
      rw [hget] at ha
      cases ha
      exact ⟨r, mem_runs_of_flight? hr, flight?_key hr, hepoch.symm⟩
  case never_idle => exact fun key e hget => hs.phase_of_get? hget
  case active_keys =>
    refine ⟨s.entries.keys.toFinset, fun key => ?_, ?_⟩
    · rw [List.mem_toFinset]
      exact hs.mem_keys key
    · rw [List.toFinset_card_of_nodup (nodup_keys s.entries)]
      exact List.length_map _
  case debouncing =>
    intro key e hget hphase
    obtain ⟨_, htimer, hwaiters⟩ := hs.of_debouncing hget hphase
    refine ⟨htimer, ?_, hwaiters⟩
    rw [htimers key, hget]
    simp [promised, htimer]
  case running =>
    intro key e hget hphase
    obtain ⟨r, hr⟩ := hs.of_running hget hphase
    obtain ⟨a, ha, _, htimer, hqueued, _⟩ := hs.of_flight hr
    rw [hget] at ha
    cases ha
    refine ⟨htimer, ?_, hqueued⟩
    rw [htimers key, hget]
    simp [promised, htimer]
  case idle =>
    intro key hidle
    rw [htimers key]
    cases hget : s.entries.get? key with
    | none => rfl
    | some e =>
      rw [Scheduler.phase, hget] at hidle
      rcases hs.phase_of_get? hget with h | h
      · rw [Option.map_some, Option.getD_some, h] at hidle; cases hidle
      · rw [Option.map_some, Option.getD_some, h] at hidle; cases hidle
  case tasked =>
    intro key e hget htasks
    rcases hs.phase_of_get? hget with hdeb | hrun
    · exact (hs.of_debouncing hget hdeb).2.2
    · obtain ⟨r, hr⟩ := hs.of_running hget hrun
      obtain ⟨a, ha, _, _, _, hdue, _⟩ := hs.of_flight hr
      rw [hget] at ha
      cases ha
      exact hdue htasks
  case finishes =>
    intro r hr
    obtain ⟨e, hget, hphase, _, _, _, hepoch, _⟩ := hs.of_flight (hs.flight?_of_mem hr)
    exact ⟨e, hget, hepoch, hphase⟩

end ProofLedger.Scheduler
