import ProofLedger.Proofs.Derivation.Coherence
import ProofLedger.Proofs.Json.Frame
import ProofLedger.Proofs.Scheduler.Agenda
import ProofLedger.Proofs.Scheduler.Requests
import ProofLedger.Proofs.Session.Course

/-!
# Fresh answers

What a request is answered with was derived after it was made. A request waits in the entry of
its file until a run takes it, and only the run that has taken it answers it; of a file one run is
in flight at a time; and what a run commits stays as it is until the next run of the file starts,
since nothing else touches what was derived (`Attended`). So when a run answers, the store holds
what was derived from the workspace as it stood when the run started (`fresh_run`).
-/

namespace ProofLedger

open Scheduler

-- ── What a run stores ─────────────────────────────────────────────────────────

/-- What is derived for a file: from its context under its own key, with the further hints
    appended. There is nothing without a context. -/
def Workspace.derived? (w : Workspace) (fileKey : String) : Option Derivation :=
  (w.context? fileKey).map fun c =>
    Derivation.derive { c with fileKey, goalHints := c.goalHints ++ w.extraHints fileKey } w.clock

/-- Whether a tree holds for a file what a run makes of it that starts in a workspace. -/
structure Reflects (fileKey : String) (w : Workspace) (tree : Json) : Prop where
  /-- goals and graph are those of the derivation, -/
  derived : ∀ d, w.derived? fileKey = some d →
    tree.getAt? (StatePath.goals fileKey) = some (.ofTable Goal.toJson d.goals) ∧
      tree.getAt? (StatePath.graph fileKey) = some d.graph.toJson
  /-- or, without a context, those that were there, -/
  kept : w.context? fileKey = none →
    tree.getAt? (StatePath.goals fileKey) = w.tree.getAt? (StatePath.goals fileKey) ∧
      tree.getAt? (StatePath.graph fileKey) = w.tree.getAt? (StatePath.graph fileKey)
  /-- and the time of the run is noted -/
  noted : tree.getAt? (StatePath.lastSynced fileKey) = some w.clock.toJson

/-- Two fields of a file are apart. -/
theorem apart_fields {fileKey name other : String} (h : name ≠ other) :
    Path.Apart ["files", fileKey, name] ["files", fileKey, other] := by
  rw [Path.apart_cons_iff, Path.apart_cons_iff, Path.apart_cons_iff]
  exact fun _ _ he => absurd he h

/-- What is below one file is apart from what is below another. -/
theorem apart_files {fileKey other : String} (h : fileKey ≠ other) (rest rest' : Path) :
    Path.Apart ("files" :: fileKey :: rest) ("files" :: other :: rest') := by
  rw [Path.apart_cons_iff, Path.apart_cons_iff]
  exact fun _ he => absurd he h

/-- A run writes below its own file only. -/
theorem path_syncPatches (w : Workspace) (fileKey : String) :
    ∀ p ∈ w.syncPatches fileKey, ∃ rest, p.path = "files" :: fileKey :: rest := by
  have hnoted : ∀ now, ∀ p ∈ Derivation.lastSyncedPatches fileKey now,
      ∃ rest, p.path = "files" :: fileKey :: rest :=
    fun _ => List.forall_mem_singleton.mpr ⟨_, rfl⟩
  unfold Workspace.syncPatches Derivation.syncPatches
  split
  · unfold Derivation.patches
    split
    · refine List.forall_mem_append.mpr ⟨?_, hnoted _⟩
      exact List.forall_mem_cons.mpr ⟨⟨_, rfl⟩, List.forall_mem_singleton.mpr ⟨_, rfl⟩⟩
    · exact hnoted _
  · exact hnoted _

namespace Reflects

variable {fileKey : String} {w : Workspace} {tree : Json}

/-- Only what is found at the file matters. -/
theorem congr (h : Reflects fileKey w tree) {tree' : Json}
    (hsame : ∀ name, tree'.getAt? ["files", fileKey, name] =
      tree.getAt? ["files", fileKey, name]) : Reflects fileKey w tree' where
  derived d hd := ⟨(hsame "goals").trans (h.derived d hd).1,
    (hsame "graph").trans (h.derived d hd).2⟩
  kept hnone := ⟨(hsame "goals").trans (h.kept hnone).1, (hsame "graph").trans (h.kept hnone).2⟩
  noted := (hsame "lastSyncedAt").trans h.noted

/-- Only the files of a tree matter. -/
theorem of_get?_files (h : Reflects fileKey w tree) {tree' : Json}
    (hfiles : tree'.get? "files" = tree.get? "files") : Reflects fileKey w tree' := by
  refine h.congr fun name => ?_
  show (tree'.get? "files").bind _ = (tree.get? "files").bind _
  rw [hfiles]

/-- A run that has no context only notes its time. -/
theorem of_noContext (h : w.context? fileKey = none) :
    Reflects fileKey w
      (Patch.applyAll (Derivation.lastSyncedPatches fileKey w.clock) w.tree) := by
  have hother : ∀ {name : String}, "lastSyncedAt" ≠ name →
      (Patch.applyAll (Derivation.lastSyncedPatches fileKey w.clock) w.tree).getAt?
        ["files", fileKey, name] = w.tree.getAt? ["files", fileKey, name] :=
    fun hname => Json.getAt?_alterAt_of_apart (apart_fields hname) _ w.tree
  refine ⟨fun d hd => ?_, fun _ => ⟨hother (by decide), hother (by decide)⟩,
    Json.getAt?_alterAt_self (fun _ => w.clock.toJson) _ w.tree⟩
  rw [Workspace.derived?, h] at hd
  cases hd

/-- A run that has a context commits its derivation. -/
theorem of_derived {d : Derivation} (h : w.derived? fileKey = some d)
    (hconsistent : d.graph.isConsistent = true) (htime : d.derivedAt = w.clock) (tree : Json) :
    Reflects fileKey w (Patch.applyAll (Derivation.patches fileKey d) tree) := by
  have hpatches : Derivation.patches fileKey d =
      [.set (StatePath.goals fileKey) (.ofTable Goal.toJson d.goals),
        .set (StatePath.graph fileKey) d.graph.toJson,
        .set (StatePath.lastSynced fileKey) w.clock.toJson] := by
    rw [Derivation.patches, if_pos hconsistent, htime]
    rfl
  rw [hpatches, Patch.applyAll_cons, Patch.applyAll_cons]
  constructor
  case derived =>
    intro d' hd'
    obtain rfl := Option.some.inj (h.symm.trans hd')
    constructor
    · rw [Patch.getAt?_applyAll_of_apart
        (List.forall_mem_singleton.mpr (apart_fields (by decide))),
        Patch.getAt?_apply_of_apart (apart_fields (by decide))]
      exact Json.getAt?_alterAt_self (fun _ => Json.ofTable Goal.toJson d.goals) _ tree
    · rw [Patch.getAt?_applyAll_of_apart
        (List.forall_mem_singleton.mpr (apart_fields (by decide)))]
      exact Json.getAt?_alterAt_self (fun _ => d.graph.toJson) _ _
  case kept =>
    intro hnone
    rw [Workspace.derived?, hnone] at h
    cases h
  case noted => exact Json.getAt?_alterAt_self (fun _ => w.clock.toJson) _ _

/-- A run stores what it derives. -/
theorem sync (fileKey : String) (w : Workspace) : Reflects fileKey w (w.sync fileKey).tree := by
  show Reflects fileKey w (Patch.applyAll (Derivation.syncPatches fileKey (w.context? fileKey)
    (w.extraHints fileKey) w.clock) w.tree)
  cases hcontext : w.context? fileKey with
  | none => exact of_noContext hcontext
  | some c =>
    have hderived : w.derived? fileKey = some (Derivation.derive
        { c with fileKey, goalHints := c.goalHints ++ w.extraHints fileKey } w.clock) := by
      rw [Workspace.derived?, hcontext]
      rfl
    exact of_derived hderived (Graph.isConsistent_iff.mpr (Derivation.consistent_derive _ _))
      Derivation.derivedAt_derive w.tree

/-- A run of another file leaves it as it is. -/
theorem sync_ne (h : Reflects fileKey w tree) {other : String} (hne : other ≠ fileKey)
    {w' : Workspace} (htree : w'.tree = tree) : Reflects fileKey w (w'.sync other).tree := by
  refine h.congr fun name => ?_
  rw [← htree]
  refine Patch.getAt?_applyAll_of_apart (fun p hp => ?_) w'.tree
  obtain ⟨rest, hpath⟩ := path_syncPatches w' other p hp
  rw [hpath]
  exact apart_files hne rest [name]

end Reflects

-- ── Requests on their way ─────────────────────────────────────────────────────

namespace Scheduler

variable {settings : SchedulerSettings} {s t : Scheduler} {event : Event} {effects : List Effect}
  {key : String}

/-- A run starts when the timer of its key fires, and nothing else happens then. -/
theorem Move.starts (hmove : Move settings s event t effects) {epoch : Nat} {reason : SyncReason}
    (h : .startRun key epoch reason ∈ effects) :
    effects = [.startRun key epoch reason] ∧ event.key? = some key ∧
      ∃ e, s.entries.get? key = some e ∧ e.phase = .debouncing := by
  cases hmove with
  | opened | rearmed | queued | nextTask | ended | followed | ignored => simp at h
  | @fired k e hget hphase =>
    have heffect := List.mem_singleton.mp h
    rw [Effect.startRun.injEq] at heffect
    obtain ⟨rfl, rfl, rfl⟩ := heffect
    exact ⟨rfl, rfl, e, hget, hphase⟩
  | cleared =>
    obtain ⟨⟨k, e⟩, -, hin⟩ := List.mem_flatMap.mp h
    rcases List.mem_append.mp hin with hin | hin
    · simp [Entry.disarm] at hin
    · simp at hin

/-- What waits for a run of a key after an event waited before, or is the request that the event
    brings. -/
theorem Move.waits (hs : s.Sound) (hmove : Move settings s event t effects) {e' : Entry}
    (hget : t.entries.get? key = some e') {n : Nat} (hn : n ∈ e'.waiters) :
    (∃ e, s.entries.get? key = some e ∧ n ∈ e.waiters) ∨
      ∃ r, event = .schedule r ∧ r.key = key ∧ n = s.requests + 1 := by
  have hjoined : ∀ (e : Entry) (r : SyncRequest), n ∈ (e.join (s.requests + 1) r).waiters →
      n ∈ e.waiters ∨ n = s.requests + 1 := fun e r hjoin =>
    (List.mem_append.mp hjoin).imp_right List.mem_singleton.mp
  by_cases hclear : event = .clear
  · subst hclear
    obtain ⟨rfl, rfl⟩ := hmove.of_clear
    rw [get?_clear] at hget
    obtain ⟨e, -, he⟩ := Option.bind_eq_some_iff.mp hget
    split at he
    · obtain rfl := Option.some.inj he
      cases hn
    · cases he
  · by_cases hkey : event.key? = some key
    · have hchange := hmove.change hs hkey
      rw [hget] at hchange
      generalize s.entries.get? key = e at hchange
      generalize s.flight? key = f at hchange
      generalize t.flight? key = f' at hchange
      cases hchange with
      | opened r _ _ hr =>
        rcases hjoined _ r hn with hn | hn
        · cases hn
        · exact Or.inr ⟨r, rfl, hr, hn⟩
      | rearmed r _ hr | queued r hr =>
        rcases hjoined _ r hn with hn | hn
        · exact Or.inl ⟨_, rfl, hn⟩
        · exact Or.inr ⟨r, rfl, hr, hn⟩
      | fired => cases hn
      | nextTask | followed | ignored => exact Or.inl ⟨_, rfl, hn⟩
    · rw [(hmove.frame hs hclear hkey).1] at hget
      exact Or.inl ⟨e', hget, hn⟩

/-- A run in flight after an event was in flight before, with the same requests, or it starts and
    takes those that wait. -/
theorem Move.takes (hs : s.Sound) (hmove : Move settings s event t effects) {r' : Run}
    (hr : t.flight? key = some r') :
    ((∃ r, s.flight? key = some r ∧ r'.waiters = r.waiters) ∧
        ∀ epoch reason, .startRun key epoch reason ∉ effects) ∨
      ∃ e, s.entries.get? key = some e ∧ r'.waiters = e.waiters ∧
        .startRun key e.epoch e.reason ∈ effects := by
  by_cases hclear : event = .clear
  · subst hclear
    have hnone : ∀ epoch reason, .startRun key epoch reason ∉ effects := by
      intro epoch reason hstart
      cases (hmove.starts hstart).2.1
    obtain ⟨rfl, -⟩ := hmove.of_clear
    exact Or.inl ⟨⟨r', hr, rfl⟩, hnone⟩
  · by_cases hkey : event.key? = some key
    · have hchange := hmove.change hs hkey
      rw [hr] at hchange
      generalize s.entries.get? key = e at hchange
      generalize s.flight? key = f at hchange
      generalize t.entries.get? key = e' at hchange
      cases hchange with
      | fired => exact Or.inr ⟨_, rfl, rfl, List.mem_singleton_self _⟩
      | queued | nextTask | ignored => exact Or.inl ⟨⟨_, rfl, rfl⟩, by simp⟩
    · have hnone : ∀ epoch reason, .startRun key epoch reason ∉ effects :=
        fun epoch reason hstart => hkey (hmove.starts hstart).2.1
      rw [(hmove.frame hs hclear hkey).2] at hr
      exact Or.inl ⟨⟨r', hr, rfl⟩, hnone⟩

end Scheduler

-- ── What a moment does to the workspace ───────────────────────────────────────

namespace Moment

variable {settings : SchedulerSettings} {m : Moment} {fileKey : String}

/-- What an effect does to a workspace: only a run changes it. -/
def act (w : Workspace) : Effect → Workspace
  | .startRun key _ _ => w.sync key
  | _ => w

/-- The world after effects is what those do that act on it. -/
theorem world_foldl (t : Timeline Workspace) (effects : List Effect) :
    (effects.foldl (Timeline.perform Workspace.worker) t).world = effects.foldl act t.world := by
  induction effects generalizing t with
  | nil => rfl
  | cons f rest ih =>
    have hfirst : (Timeline.perform Workspace.worker t f).world = act t.world f := by
      cases f <;> rfl
    rw [List.foldl_cons, List.foldl_cons, ih, hfirst]

/-- The world after a moment is what its effects make of it. -/
theorem world_after (settings : SchedulerSettings) (m : Moment) :
    (m.after settings).world = (m.effects settings).foldl act m.before.world := by
  have hobserved : (m.before.observed m.event).world = m.before.world := by
    cases m.event <;> rfl
  rw [← hobserved]
  exact world_foldl { m.before.observed m.event with scheduler := _ } _

/-- A moment that starts the run of a file syncs the file. -/
theorem world_of_starts (hs : m.before.scheduler.Sound) (h : m.Starts settings fileKey) :
    (m.after settings).world = m.before.world.sync fileKey := by
  obtain ⟨epoch, reason, hmem⟩ := h
  rw [world_after, effects, ((step_move settings hs m.event).starts hmem).1]
  rfl

/-- A moment that starts no run leaves the world alone. -/
theorem world_of_not_starts (h : ∀ fileKey, ¬ m.Starts settings fileKey) :
    (m.after settings).world = m.before.world := by
  have hfold : ∀ effects : List Effect, (∀ key epoch reason, .startRun key epoch reason ∉ effects) →
      ∀ w, effects.foldl act w = w := by
    intro effects
    induction effects with
    | nil => exact fun _ _ => rfl
    | cons f rest ih =>
      intro hnone w
      have hact : act w f = w := by
        cases f with
        | startRun key epoch reason => exact absurd List.mem_cons_self (hnone key epoch reason)
        | _ => rfl
      rw [List.foldl_cons, hact]
      exact ih (fun key epoch reason hmem =>
        hnone key epoch reason (List.mem_cons_of_mem f hmem)) w
  rw [world_after]
  exact hfold _ (fun key epoch reason hmem => h key ⟨epoch, reason, hmem⟩) _

/-- A moment at which a request is resolved starts no run. -/
theorem not_starts_of_resolves (hs : m.before.scheduler.Sound) {n : Nat}
    (h : m.Resolves settings n) (fileKey : String) : ¬ m.Starts settings fileKey := by
  rintro ⟨epoch, reason, hmem⟩
  have heffects := ((step_move settings hs m.event).starts hmem).1
  have hresolve : .resolve n ∈ m.effects settings := h
  rw [effects, heffects] at hresolve
  cases List.mem_singleton.mp hresolve

end Moment

-- ── The last run of a file ────────────────────────────────────────────────────

/-- The last run of a file, among moments, started at a moment between two parts. -/
structure LastStart (settings : SchedulerSettings) (fileKey : String) (ms opening : List Moment)
    (start : Moment) (during : List Moment) : Prop where
  split : ms = opening ++ start :: during
  starts : start.Starts settings fileKey
  last : ∀ m ∈ during, ¬ m.Starts settings fileKey

namespace LastStart

variable {settings : SchedulerSettings} {fileKey : String} {ms opening during : List Moment}
  {start m : Moment}

/-- It remains the last one until another one starts. -/
theorem extend (h : LastStart settings fileKey ms opening start during)
    (hm : ¬ m.Starts settings fileKey) :
    LastStart settings fileKey (ms ++ [m]) opening start (during ++ [m]) where
  split := by rw [h.split, List.append_assoc, List.cons_append]
  starts := h.starts
  last x hx := by
    rcases List.mem_append.mp hx with hx | hx
    · exact h.last x hx
    · exact List.mem_singleton.mp hx ▸ hm

/-- It is the one that starts now, or was the last one before. -/
theorem of_concat (h : LastStart settings fileKey (ms ++ [m]) opening start during) :
    (start = m ∧ m.Starts settings fileKey) ∨
      (¬ m.Starts settings fileKey ∧
        ∃ before, LastStart settings fileKey ms opening start before) := by
  obtain ⟨hsplit, hstarts, hlast⟩ := h
  induction during using List.reverseRecOn with
  | nil =>
    obtain ⟨-, hm⟩ := List.append_inj' hsplit rfl
    obtain rfl := (List.cons.inj hm).1
    exact Or.inl ⟨rfl, hstarts⟩
  | append_singleton before x _ =>
    rw [← List.cons_append, ← List.append_assoc] at hsplit
    obtain ⟨hms, hm⟩ := List.append_inj' hsplit rfl
    obtain rfl := (List.cons.inj hm).1
    refine Or.inr ⟨hlast _ (List.mem_append_right before List.mem_cons_self), before, hms, hstarts,
      fun y hy => hlast y (List.mem_append_left _ hy)⟩

end LastStart

-- ── What a course keeps ───────────────────────────────────────────────────────

/-- What holds of a timeline that has passed through moments. -/
structure Attended (settings : SchedulerSettings) (ms : List Moment) (t : Timeline Workspace) :
    Prop where
  sound : t.scheduler.Sound
  /-- what waits for a run of a file was registered for it -/
  waiting : ∀ fileKey e n, t.scheduler.entries.get? fileKey = some e → n ∈ e.waiters →
    ∃ m ∈ ms, m.Registers n fileKey
  /-- a run in flight is the last one of its file, and what it has taken was registered for the
      file before it started -/
  flying : ∀ fileKey r, t.scheduler.flight? fileKey = some r → ∃ opening start during,
    LastStart settings fileKey ms opening start during ∧
      ∀ n ∈ r.waiters, ∃ m ∈ opening, m.Registers n fileKey
  /-- what the last run of a file stored is still there -/
  stored : ∀ fileKey opening start during,
    LastStart settings fileKey ms opening start during →
      Reflects fileKey start.before.world t.world.tree

namespace Attended

variable {settings : SchedulerSettings} {ms : List Moment} {t t' : Timeline Workspace}

/-- A quiet change of the timeline is of no account. -/
theorem quiet (h : Attended settings ms t) (hquiet : Quiet t t') : Attended settings ms t' where
  sound := hquiet.scheduler ▸ h.sound
  waiting := hquiet.scheduler ▸ h.waiting
  flying := hquiet.scheduler ▸ h.flying
  stored fileKey opening start during hlast :=
    (h.stored fileKey opening start during hlast).of_get?_files hquiet.files

/-- Every moment keeps it. -/
theorem moment (h : Attended settings ms t) (e : Event) :
    Attended settings (ms ++ [⟨t, e⟩]) (t.tell settings Workspace.worker e) := by
  have hs := h.sound
  have hmove := step_move settings hs e
  have hscheduler : (t.tell settings Workspace.worker e).scheduler =
      (t.scheduler.step settings e).1 := Timeline.scheduler_tell settings Workspace.worker t e
  constructor
  case sound =>
    rw [hscheduler]
    exact hs.move hmove
  case waiting =>
    rw [hscheduler]
    intro fileKey entry n hget hn
    rcases hmove.waits hs hget hn with ⟨before, hbefore, hn⟩ | ⟨r, rfl, hr, hn⟩
    · obtain ⟨m, hm, hregisters⟩ := h.waiting fileKey before n hbefore hn
      exact ⟨m, List.mem_append_left _ hm, hregisters⟩
    · exact ⟨_, List.mem_append_right ms List.mem_cons_self, r, rfl, hr, hn⟩
  case flying =>
    rw [hscheduler]
    intro fileKey r hr
    rcases hmove.takes hs hr with ⟨⟨before, hbefore, hsame⟩, hnone⟩ | ⟨entry, hget, htaken, hstart⟩
    · obtain ⟨opening, start, during, hlast, hregistered⟩ := h.flying fileKey before hbefore
      refine ⟨opening, start, during ++ [⟨t, e⟩], hlast.extend ?_, hsame ▸ hregistered⟩
      rintro ⟨epoch, reason, hmem⟩
      exact hnone epoch reason hmem
    · refine ⟨ms, ⟨t, e⟩, [], ⟨rfl, ⟨_, _, hstart⟩, List.forall_mem_nil _⟩, fun n hn => ?_⟩
      exact h.waiting fileKey entry n hget (htaken ▸ hn)
  case stored =>
    intro fileKey opening start during hlast
    show Reflects fileKey start.before.world ((⟨t, e⟩ : Moment).after settings).world.tree
    rcases hlast.of_concat with ⟨rfl, hstarts⟩ | ⟨hnot, before, hbefore⟩
    · rw [Moment.world_of_starts hs hstarts]
      exact .sync fileKey t.world
    · have hstored := h.stored fileKey opening start before hbefore
      by_cases hother : ∃ other, (⟨t, e⟩ : Moment).Starts settings other
      · obtain ⟨other, hother⟩ := hother
        have hne : other ≠ fileKey := fun he => hnot (he ▸ hother)
        rw [Moment.world_of_starts hs hother]
        exact hstored.sync_ne hne rfl
      · rw [Moment.world_of_not_starts fun key hkey => hother ⟨key, hkey⟩]
        exact hstored

end Attended

namespace Course

variable {settings : SchedulerSettings} {start t : Timeline Workspace} {ms : List Moment}

/-- Every request of a course is attended to. -/
theorem attended (h : Course settings start ms t) (hstart : start.scheduler = {}) :
    Attended settings ms t := by
  induction h with
  | begun =>
    refine ⟨hstart ▸ sound_start, ?_, ?_, ?_⟩
    · rw [hstart]
      exact fun _ _ _ hget => nomatch hget
    · rw [hstart]
      exact fun _ _ hr => nomatch hr
    · intro _ opening _ _ hlast
      exact absurd hlast.split (by simp)
  | moment _ e ih => exact ih.moment e
  | pause _ hquiet ih => exact ih.quiet hquiet

/-- Each moment comes at the end of the course of those before it. -/
theorem before (h : Course settings start ms t) {opening later : List Moment} {m : Moment}
    (hms : ms = opening ++ m :: later) : Course settings start opening m.before := by
  induction h generalizing later with
  | begun => exact absurd hms (by simp)
  | @moment ms t h e ih =>
    induction later using List.reverseRecOn with
    | nil =>
      obtain ⟨rfl, hm⟩ := List.append_inj' hms rfl
      obtain rfl := (List.cons.inj hm).1
      exact h
    | append_singleton later x _ =>
      rw [← List.cons_append, ← List.append_assoc] at hms
      exact ih (List.append_inj' hms rfl).1
  | pause _ _ ih => exact ih hms

end Course

-- ── Resolved requests ─────────────────────────────────────────────────────────

namespace Timeline

variable {World : Type} (w : Worker World) (n : Nat)

/-- A request is resolved by what is noted of it. -/
theorem isResolved_note (t : Timeline World) (h : Happening) :
    (t.note h).isResolved n = true ↔ t.isResolved n = true ∨ h = .resolved n := by
  simp [isResolved, note]

/-- An effect resolves a request exactly if it is the resolution of this request. -/
theorem isResolved_perform (t : Timeline World) (f : Effect) :
    (perform w t f).isResolved n = true ↔ t.isResolved n = true ∨ f = .resolve n := by
  cases f with
  | arm | disarm => exact (or_iff_left (by simp)).symm
  | startRun | startTask => exact (isResolved_note n t _).trans (by simp)
  | resolve request => exact (isResolved_note n t _).trans (by simp)

/-- A request is resolved by effects exactly if one of them resolves it. -/
theorem isResolved_foldl (t : Timeline World) (effects : List Effect) :
    (effects.foldl (perform w) t).isResolved n = true ↔
      t.isResolved n = true ∨ .resolve n ∈ effects := by
  induction effects generalizing t with
  | nil => simp
  | cons f rest ih =>
    rw [List.foldl_cons, ih, isResolved_perform, List.mem_cons, or_assoc, eq_comm (a := f)]

/-- What is resolved is what was resolved before, and what the scheduler resolves. -/
theorem isResolved_tell (settings : SchedulerSettings) (t : Timeline World) (e : Event) :
    (t.tell settings w e).isResolved n = true ↔
      t.isResolved n = true ∨ .resolve n ∈ (t.scheduler.step settings e).2 := by
  have hobserved : (t.observed e).isResolved n = t.isResolved n := by
    cases e with
    | runEnded key epoch outcome =>
      rw [Bool.eq_iff_iff]
      exact (isResolved_note n t _).trans (by simp)
    | _ => rfl
  rw [tell, isResolved_foldl]
  exact or_congr_left (iff_of_eq (congrArg (· = true) hobserved))

end Timeline

/-- A request that is resolved at the end of a course was so at its start, or is resolved at a
    moment of it. -/
theorem Course.isResolved_iff {settings : SchedulerSettings} {start t : Timeline Workspace}
    {ms : List Moment} (h : Course settings start ms t) (n : Nat) :
    t.isResolved n = true ↔
      start.isResolved n = true ∨ ∃ m ∈ ms, m.Resolves settings n := by
  induction h with
  | begun => simp
  | @moment ms t _ e ih =>
    rw [Timeline.isResolved_tell, ih, or_assoc]
    refine or_congr_right ?_
    simp only [List.mem_append, List.mem_singleton, or_and_right, exists_or, exists_eq_left]
    rfl
  | pause _ hquiet ih =>
    rw [Timeline.isResolved, hquiet.log]
    exact ih

-- ── Freshness ─────────────────────────────────────────────────────────────────

/-- How the requests of a session are answered, by its chronicle and by its timeline at the
    end. -/
structure Fresh (settings : SchedulerSettings) (ms : List Moment) (last : Timeline Workspace) :
    Prop where
  /-- what is resolved is resolved at a moment of the chronicle -/
  resolved : ∀ n, last.isResolved n = true ↔ ∃ m ∈ ms, m.Resolves settings n
  /-- A request that is resolved, and not by a shutdown, is answered by the last run of its file,
      which started after the request was made. What that run derived is what the store holds. -/
  answered : ∀ before m later n, ms = before ++ m :: later → m.Resolves settings n →
    m.event ≠ .clear → ∃ fileKey opening start during,
      LastStart settings fileKey before opening start during ∧
        (∃ x ∈ opening, x.Registers n fileKey) ∧
        Reflects fileKey start.before.world (m.after settings).world.tree
  /-- Until the next run of a file starts, and also when it does, the store holds what the last
      one derived. So no run commits after a later one has started. -/
  current : ∀ before m later, ms = before ++ m :: later → ∀ fileKey opening start during,
    LastStart settings fileKey before opening start during →
      Reflects fileKey start.before.world m.before.world.tree
  /-- This is still so at the end. -/
  final : ∀ fileKey opening start during, LastStart settings fileKey ms opening start during →
    Reflects fileKey start.before.world last.world.tree
  /-- a run starts only if no other run of its file is in flight -/
  alone : ∀ m ∈ ms, ∀ fileKey, m.Starts settings fileKey →
    m.before.scheduler.flight? fileKey = none

/-- In a course of its own every request is served freshly. -/
theorem Course.fresh {settings : SchedulerSettings} {world : Workspace}
    {t : Timeline Workspace} {ms : List Moment} (h : Course settings { world } ms t) :
    Fresh settings ms t where
  resolved n := (h.isResolved_iff n).trans (by simp [Timeline.isResolved])
  answered before m later n hms hn hclear := by
    have hattended := (h.before hms).attended rfl
    have hs := hattended.sound
    rcases (step_move settings hs m.event).resolves hn with ⟨he, -⟩ | ⟨r, -, hr, -, htaken, -⟩
    · exact absurd he hclear
    · obtain ⟨opening, start, during, hlast, hregistered⟩ := hattended.flying r.key r hr
      refine ⟨r.key, opening, start, during, hlast, hregistered n htaken, ?_⟩
      rw [Moment.world_of_not_starts (Moment.not_starts_of_resolves hs hn)]
      exact hattended.stored r.key opening start during hlast
  current before m later hms fileKey opening start during hlast :=
    ((h.before hms).attended rfl).stored fileKey opening start during hlast
  final := (h.attended rfl).stored
  alone m hm fileKey hstarts := by
    obtain ⟨before, later, hms⟩ := List.append_of_mem hm
    have hs := ((h.before hms).attended rfl).sound
    obtain ⟨epoch, reason, hmem⟩ := hstarts
    obtain ⟨-, -, e, hget, hphase⟩ := (step_move settings hs m.event).starts hmem
    exact (hs.of_debouncing hget hphase).1

namespace Session

/-- Whatever is done in a session, in whatever order, and however contexts, hints and the clock
    change in the meantime, its requests are answered with what was derived after they were
    made. -/
theorem fresh_run (world : Workspace) (scheduling : SchedulerSettings)
    (ranking : RankingSettings) (executor : Option (List ExecutorAnswer)) (steps : List Step) :
    Fresh scheduling ((opened world scheduling ranking executor).chronicle steps)
      ((opened world scheduling ranking executor).run steps).timeline :=
  (course_run (opened world scheduling ranking executor) steps).fresh

/-- A request for a file without a context is answered when its timer has expired. -/
example : ((opened { clock := ⟨1700000000, 0⟩ } {} {} none).run
    [.schedule { key := "A.lean", reason := .save, overrideMs := some 5 },
      .advance 5]).timeline.isResolved 1 = true := by
  decide +kernel

end Session

end ProofLedger
