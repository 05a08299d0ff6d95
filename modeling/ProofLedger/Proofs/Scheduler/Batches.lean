import ProofLedger.Proofs.Scheduler.Requests

/-!
# Runs take requests in blocks

A run of a key takes the requests that wait when it starts. Those are the requests registered since
the run before it started, except for the ones that a clear dropped; so the requests that are not
dropped fall into the blocks of the runs and those that still wait, in the order of registration
(`batched_after`). A run covers its block to the end.
-/

namespace ProofLedger.Scheduler

variable {settings : SchedulerSettings}

-- ── Blocks ────────────────────────────────────────────────────────────────────

namespace Sighting

/-- Whether a run of the key starts. -/
def starts (key : String) : Sighting → Bool
  | .started k _ => k = key
  | _ => false

/-- The requests that a run of the key resolves at its end. -/
def finished? (key : String) : Sighting → Option (List Nat)
  | .finished k covered => if k = key then some covered else none
  | _ => none

/-- What leaves requests waiting starts no run. -/
theorem Still.starts {key : String} {σ : Sighting} (h : σ.Still key) : σ.starts key = false := by
  cases σ with
  | started => exact h.2
  | _ => rfl

/-- What leaves requests waiting drops nothing. -/
theorem Still.dropped {key : String} {σ : Sighting} (h : σ.Still key) : σ.dropped = [] := by
  cases σ with
  | cleared => cases h.2
  | _ => rfl

end Sighting

/-- What the journal says whenever a run of a key starts, given what was seen before. -/
def startsFrom {β : Type} (view : List Sighting → β) (key : String) :
    List Sighting → List Sighting → List β
  | _, [] => []
  | before, σ :: rest =>
    (if σ.starts key then [view before] else []) ++ startsFrom view key (before ++ [σ]) rest

/-- What the journal says at the starts of the runs of a key, run by run. -/
def atStarts {β : Type} (view : List Sighting → β) (key : String) (j : List Sighting) : List β :=
  startsFrom view key [] j

/-- The requests of a key registered since its last run started, dropped or not. -/
def sinceStart (key : String) (j : List Sighting) : List (Nat × SyncRequest) :=
  requestsOf key (j.rtakeWhile fun σ => !σ.starts key)

/-- The blocks of requests that the runs of a key take: those that wait when they start. -/
def blocks (key : String) : List Sighting → List (List (Nat × SyncRequest)) :=
  atStarts (waiting key) key

/-- The requests that runs of a key have resolved, run by run. -/
def finishedOf (key : String) (j : List Sighting) : List (List Nat) :=
  j.filterMap (·.finished? key)

/-- Whether a run of a key has started and not finished. -/
def InFlight (key : String) (j : List Sighting) : Prop :=
  (finishedOf key j).length < (blocks key j).length

/-- The requests that no clear has dropped. -/
def undropped (j : List Sighting) (requests : List (Nat × SyncRequest)) :
    List (Nat × SyncRequest) :=
  requests.filter fun x => x.1 ∉ droppedIn j

/-- The starts in a journal are those in its parts. -/
theorem startsFrom_append {β : Type} (view : List Sighting → β) (key : String)
    (before a b : List Sighting) :
    startsFrom view key before (a ++ b) =
      startsFrom view key before a ++ startsFrom view key (before ++ a) b := by
  induction a generalizing before with
  | nil => rw [List.append_nil]; rfl
  | cons σ a ih =>
    rw [List.cons_append, startsFrom, startsFrom, ih, List.append_assoc, List.append_assoc]
    rfl

/-- One more sighting matters if it is a start. -/
theorem atStarts_concat {β : Type} (view : List Sighting → β) (key : String) (j : List Sighting)
    (σ : Sighting) :
    atStarts view key (j ++ [σ]) =
      atStarts view key j ++ if σ.starts key then [view j] else [] := by
  rw [atStarts, startsFrom_append, List.nil_append, startsFrom, startsFrom, List.append_nil]
  rfl

/-- A start takes the requests that wait as one block. -/
theorem blocks_concat (key : String) (j : List Sighting) (σ : Sighting) :
    blocks key (j ++ [σ]) = blocks key j ++ if σ.starts key then [waiting key j] else [] :=
  atStarts_concat (waiting key) key j σ

/-- What waits when a run starts is the block of the run. -/
theorem waiting_mem_blocks (key : String) (before rest : List Sighting) (reason : SyncReason) :
    waiting key before ∈ blocks key (before ++ .started key reason :: rest) := by
  have hstarts : (Sighting.started key reason).starts key = true := decide_eq_true rfl
  rw [blocks, atStarts, startsFrom_append, startsFrom, if_pos hstarts]
  exact List.mem_append_right _ (List.mem_append_left _ (List.mem_singleton.mpr rfl))

theorem finishedOf_append (key : String) (a b : List Sighting) :
    finishedOf key (a ++ b) = finishedOf key a ++ finishedOf key b := List.filterMap_append

/-- The end of a piece of work is not the end of the run. -/
theorem Run.closing_finished? (r : Run) (outcome : RunOutcome) (key : String) :
    (r.closing outcome).finished? key = none := by
  unfold Run.closing
  cases r.stage <;> rfl

/-- Of the two sightings at the end only the second can end the run. -/
theorem finishedOf_closing (key : String) (r : Run) (outcome : RunOutcome) (σ : Sighting) :
    finishedOf key [r.closing outcome, σ] = (σ.finished? key).toList := by
  rw [finishedOf, List.filterMap_cons_none (r.closing_finished? outcome key)]
  cases h : σ.finished? key <;> simp [h]

theorem requestsOf_append (key : String) (a b : List Sighting) :
    requestsOf key (a ++ b) = requestsOf key a ++ requestsOf key b := List.filterMap_append

/-- A start takes what came since the one before. -/
theorem sinceStart_concat (key : String) (j : List Sighting) (σ : Sighting) :
    sinceStart key (j ++ [σ]) =
      if σ.starts key then [] else sinceStart key j ++ (σ.request? key).toList := by
  unfold sinceStart
  by_cases h : σ.starts key = true
  · rw [List.rtakeWhile_concat_neg _ _ _ (by simp [h]), if_pos h]
    rfl
  · rw [List.rtakeWhile_concat_pos _ _ _ (by simp [h]), if_neg h, requestsOf_append]
    cases hr : σ.request? key <;> simp [requestsOf, hr]

/-- How the requests of a key fall into blocks. -/
structure Batched (key : String) (s : Scheduler) (j : List Sighting) : Prop where
  /-- those that no clear dropped are in the block of a run or wait, in the order of registration -/
  order : undropped j (requestsOf key j) = (blocks key j).flatten ++ waiting key j
  /-- those that wait were registered since the last start of a run -/
  since : waiting key j = undropped j (sinceStart key j)
  /-- the block of a run consists of those that were registered since the start before -/
  spans : blocks key j = (atStarts (sinceStart key) key j).map (undropped j)
  nonempty : ∀ block ∈ blocks key j, block ≠ []
  /-- run by run, what a run has resolved is its block; the last one may be in flight -/
  covers : finishedOf key j ++ ((s.flight? key).map (·.waiters)).toList =
    (blocks key j).map fun block => block.map (·.1)

section Still

variable {key : String} {more : List Sighting} (h : ∀ σ ∈ more, σ.Still key)
include h

theorem droppedIn_still : droppedIn more = [] :=
  List.flatMap_eq_nil_iff.mpr fun σ hσ => (h σ hσ).dropped

/-- No request is among what leaves requests waiting. -/
theorem requestsOf_still : requestsOf key more = [] :=
  List.filterMap_eq_nil_iff.mpr fun σ hσ => (h σ hσ).1

/-- Without a start the runs are the same. -/
theorem atStarts_still {β : Type} (view : List Sighting → β) (j : List Sighting) :
    atStarts view key (j ++ more) = atStarts view key j := by
  induction more using List.reverseRecOn with
  | nil => rw [List.append_nil]
  | append_singleton more σ ih =>
    rw [← List.append_assoc, atStarts_concat, (h σ (by simp)).starts,
      ih fun τ hτ => h τ (List.mem_append_left _ hτ)]
    exact List.append_nil _

/-- Without a start the blocks are the same. -/
theorem blocks_still (j : List Sighting) : blocks key (j ++ more) = blocks key j :=
  atStarts_still h (waiting key) j

/-- Without a clear no request is dropped. -/
theorem undropped_still (j : List Sighting) : undropped (j ++ more) = undropped j := by
  funext requests
  rw [undropped, droppedIn_append, droppedIn_still h, List.append_nil]
  rfl

/-- Without a start and a request the same requests came since the last start. -/
theorem sinceStart_still (j : List Sighting) : sinceStart key (j ++ more) = sinceStart key j := by
  induction more using List.reverseRecOn with
  | nil => rw [List.append_nil]
  | append_singleton more σ ih =>
    rw [← List.append_assoc, sinceStart_concat, (h σ (by simp)).starts, (h σ (by simp)).1,
      ih fun τ hτ => h τ (List.mem_append_left _ hτ)]
    exact List.append_nil _

/-- What leaves the requests that wait as they are leaves the blocks as they are. -/
theorem Batched.still {s t : Scheduler} {j : List Sighting} (hbatched : Batched key s j)
    (hcovers : finishedOf key more ++ ((t.flight? key).map (·.waiters)).toList =
      ((s.flight? key).map (·.waiters)).toList) : Batched key t (j ++ more) where
  order := by
    rw [undropped_still h, requestsOf_append, requestsOf_still h, blocks_still h, waiting_still h,
      List.append_nil]
    exact hbatched.order
  since := by
    rw [undropped_still h, waiting_still h, sinceStart_still h]
    exact hbatched.since
  spans := by
    rw [undropped_still h, blocks_still h, atStarts_still h]
    exact hbatched.spans
  nonempty := by
    rw [blocks_still h]
    exact hbatched.nonempty
  covers := by
    rw [finishedOf_append, List.append_assoc, hcovers, blocks_still h]
    exact hbatched.covers

end Still

/-- What is seen of an event resolves nothing that runs of other keys have taken. -/
theorem finishedOf_other {s t : Scheduler} {event : Event} {effects : List Effect}
    (hmove : Move settings s event t effects) {key : String} (hkey : event.key? ≠ some key) :
    finishedOf key (seen (s.requests + 1) event effects) = [] := by
  refine List.filterMap_eq_nil_iff.mpr fun σ hσ => ?_
  have hwork := isWork_other hmove hkey σ hσ
  cases σ with
  | finished k covered => exact if_neg (of_decide_eq_false hwork)
  | _ => rfl

section Moves

variable {key : String} {s t : Scheduler} {j : List Sighting}

/-- A request is registered: it waits. -/
theorem Batched.register (h : Batched key s j) {n : Nat} {r : SyncRequest} (hkey : r.key = key)
    (hfresh : n ∉ droppedIn j) (hflight : t.flight? key = s.flight? key) :
    Batched key t (j ++ [.registered n r]) := by
  have hdropped : undropped (j ++ [.registered n r]) = undropped j := by
    funext requests
    rw [undropped, droppedIn_append]
    exact congrArg (fun numbers => requests.filter fun x => x.1 ∉ numbers) (List.append_nil _)
  have hquiet : (Sighting.registered n r).starts key = false := rfl
  have hrequest : (Sighting.registered n r).request? key = some (n, r) := if_pos hkey
  have hkeeps : undropped j [(n, r)] = [(n, r)] := List.filter_eq_self.mpr fun x hx => by
    rw [List.mem_singleton.mp hx]
    exact decide_eq_true hfresh
  constructor
  case order =>
    have hone : requestsOf key [.registered n r] = [(n, r)] := by
      rw [requestsOf, List.filterMap_cons_some hrequest]
      rfl
    rw [hdropped, requestsOf_append, hone, undropped, List.filter_append, waiting_registered,
      if_pos hkey, blocks_concat, hquiet, if_neg Bool.false_ne_true, List.append_nil,
      ← List.append_assoc, ← h.order]
    exact congrArg (_ ++ ·) hkeeps
  case since =>
    rw [hdropped, waiting_registered, if_pos hkey, sinceStart_concat, hquiet,
      if_neg Bool.false_ne_true, hrequest, undropped, List.filter_append, h.since]
    exact congrArg (_ ++ ·) hkeeps.symm
  case spans =>
    rw [hdropped, blocks_concat, atStarts_concat, hquiet, if_neg Bool.false_ne_true,
      if_neg Bool.false_ne_true, List.append_nil, List.append_nil]
    exact h.spans
  case nonempty =>
    rw [blocks_concat, hquiet, if_neg Bool.false_ne_true, List.append_nil]
    exact h.nonempty
  case covers =>
    rw [blocks_concat, hquiet, if_neg Bool.false_ne_true, List.append_nil, finishedOf_append,
      hflight, ← h.covers]
    exact congrArg (· ++ _) (List.append_nil _)

/-- A run starts: it takes all that waits. -/
theorem Batched.start (h : Batched key s j) {reason : SyncReason} {r : Run}
    (hnone : s.flight? key = none) (hsome : t.flight? key = some r)
    (hwaits : waiting key j ≠ []) (htakes : r.waiters = (waiting key j).map (·.1)) :
    Batched key t (j ++ [.started key reason]) := by
  have hstarts : (Sighting.started key reason).starts key = true := decide_eq_true rfl
  have hdropped : undropped (j ++ [.started key reason]) = undropped j := by
    funext requests
    rw [undropped, droppedIn_append]
    exact congrArg (fun numbers => requests.filter fun x => x.1 ∉ numbers) (List.append_nil _)
  have hempty : waiting key (j ++ [.started key reason]) = [] := by
    rw [waiting_started, if_pos rfl]
  constructor
  case order =>
    have hnothing : requestsOf key (j ++ [.started key reason]) = requestsOf key j := by
      rw [requestsOf_append]
      exact List.append_nil _
    rw [hdropped, hnothing, blocks_concat, if_pos hstarts, hempty, List.append_nil,
      List.flatten_append, List.flatten_singleton]
    exact h.order
  case since =>
    rw [hempty, sinceStart_concat, if_pos hstarts]
    rfl
  case spans =>
    rw [hdropped, blocks_concat, atStarts_concat, if_pos hstarts, if_pos hstarts, List.map_append,
      ← h.spans, h.since]
    rfl
  case nonempty =>
    rw [blocks_concat, if_pos hstarts]
    intro block hblock
    rcases List.mem_append.mp hblock with hold | hnew
    · exact h.nonempty block hold
    · rw [List.mem_singleton.mp hnew]
      exact hwaits
  case covers =>
    have hcovers := h.covers
    rw [hnone] at hcovers
    rw [finishedOf_append, blocks_concat, if_pos hstarts, List.map_append, hsome, ← hcovers,
      Option.map_some, htakes]
    simp [finishedOf, Sighting.finished?]

/-- A clear drops requests from those that came. -/
theorem undropped_cleared (dropped : List Nat) (requests : List (Nat × SyncRequest)) :
    undropped (j ++ [.cleared dropped]) requests =
      (undropped j requests).filter fun x => x.1 ∉ dropped := by
  have hdropped : droppedIn (j ++ [.cleared dropped]) = droppedIn j ++ dropped := by
    rw [droppedIn_append]
    exact congrArg (_ ++ ·) (List.append_nil _)
  rw [undropped, undropped, List.filter_filter, hdropped]
  refine List.filter_congr fun x _ => ?_
  simp [not_or, and_comm]

/-- A clear drops all that waits, and nothing that a run has taken. -/
theorem Batched.clear (h : Batched key s j) (hrec : Recorded s j) :
    Batched key (clear s).1 (j ++ [.cleared (resolvedBy (clear s).2)]) := by
  generalize hdropped : resolvedBy (Scheduler.clear s).2 = dropped
  have hquiet : (Sighting.cleared dropped).starts key = false := rfl
  have hmem : ∀ x ∈ requestsOf key j, x.1 ∈ dropped ↔ x ∈ waiting key j :=
    fun x hx => hdropped ▸ hrec.mem_cleared hx
  have hdrops : (waiting key j).filter (fun x => x.1 ∉ dropped) = [] := by
    refine List.filter_eq_nil_iff.mpr fun x hx => ?_
    simpa using (hmem x ((waiting_sublist key j).subset hx)).mpr hx
  have hspares : ∀ x ∈ (blocks key j).flatten, x.1 ∉ dropped := by
    intro x hx hin
    have hnodup : ((blocks key j).flatten ++ waiting key j).Nodup := by
      have hnumbers : ((registry j).map (·.1)).Nodup := hrec.numbers ▸ List.nodup_range'
      rw [← h.order, requestsOf_eq]
      exact (hnumbers.of_map.filter _).filter _
    have hrequest : x ∈ requestsOf key j := by
      have hkept : x ∈ undropped j (requestsOf key j) := h.order ▸ List.mem_append_left _ hx
      exact (List.mem_filter.mp hkept).1
    exact (List.disjoint_of_nodup_append hnodup) hx ((hmem x hrequest).mp hin)
  constructor
  case order =>
    have hsame : requestsOf key (j ++ [.cleared dropped]) = requestsOf key j := by
      rw [requestsOf_append]
      exact List.append_nil _
    rw [undropped_cleared, hsame, h.order, List.filter_append, hdrops, waiting_cleared,
      blocks_concat, hquiet, if_neg Bool.false_ne_true]
    simp only [List.append_nil]
    exact List.filter_eq_self.mpr fun x hx => decide_eq_true (hspares x hx)
  case since =>
    rw [undropped_cleared, waiting_cleared, sinceStart_concat, hquiet, if_neg Bool.false_ne_true]
    show [] = (undropped j (sinceStart key j ++ [])).filter _
    rw [List.append_nil, ← h.since, hdrops]
  case spans =>
    rw [blocks_concat, atStarts_concat, hquiet, if_neg Bool.false_ne_true,
      if_neg Bool.false_ne_true, List.append_nil, List.append_nil]
    have hblock : ∀ block ∈ blocks key j, block.filter (fun x => x.1 ∉ dropped) = block :=
      fun block hblock => List.filter_eq_self.mpr fun x hx =>
        decide_eq_true (hspares x (List.mem_flatten_of_mem hblock hx))
    calc blocks key j
        = (blocks key j).map fun block => block.filter fun x => x.1 ∉ dropped := by
          rw [List.map_congr_left hblock, List.map_id']
      _ = ((atStarts (sinceStart key) key j).map (undropped j)).map
            fun block => block.filter fun x => x.1 ∉ dropped := by rw [← h.spans]
      _ = (atStarts (sinceStart key) key j).map (undropped (j ++ [.cleared dropped])) := by
          rw [List.map_map]
          exact List.map_congr_left fun b _ => (undropped_cleared dropped b).symm
  case nonempty =>
    rw [blocks_concat, hquiet, if_neg Bool.false_ne_true, List.append_nil]
    exact h.nonempty
  case covers =>
    rw [blocks_concat, hquiet, if_neg Bool.false_ne_true, List.append_nil, finishedOf_append,
      ← h.covers]
    exact congrArg (· ++ _) (List.append_nil _)

/-- Every event keeps the requests of its key in their blocks. -/
private theorem batched_own {event : Event} {effects : List Effect} (h : Batched key s j)
    (hs : s.Sound) (hrec : Recorded s j) (hfresh : s.requests + 1 ∉ droppedIn j)
    (hchange : Change settings s key event (s.entries.get? key) (s.flight? key)
      (t.entries.get? key) (t.flight? key) effects) :
    Batched key t (j ++ seen (s.requests + 1) event effects) := by
  have hstanding := hs.standing key
  have hcarries := hrec.entries key
  generalize hentry : s.entries.get? key = e at *
  generalize hflight : s.flight? key = f at *
  generalize t.entries.get? key = e' at *
  generalize hflight' : t.flight? key = f' at *
  cases hchange with
  | opened q epoch token hkey | rearmed q token hkey | queued q hkey =>
    exact h.register hkey hfresh (hflight'.trans hflight.symm)
  | @fired e hphase =>
    have hwaiters := hcarries.waiters
    refine h.start hflight hflight' (fun hnone => ?_) hwaiters
    rw [hnone] at hwaiters
    cases hstanding with
    | debouncing _ _ hne => exact hne hwaiters
  | @nextTask e r n rest outcome hkey =>
    subst hkey
    rw [seen_nextTask]
    refine h.still (still_closing _ r outcome ⟨rfl, rfl⟩) ?_
    rw [finishedOf_closing, hflight, hflight']
    rfl
  | @ended e r outcome hkey htasks hnone hcovers =>
    subst hkey
    rw [seen_ended hcovers]
    refine h.still (still_closing _ r outcome ⟨rfl, rfl⟩) ?_
    rw [finishedOf_closing, hflight, hflight', Sighting.finished?, if_pos rfl]
    rfl
  | @followed e r outcome token hkey htasks hsome hcovers =>
    subst hkey
    rw [seen_followed hcovers]
    refine h.still (still_closing _ r outcome ⟨rfl, rfl⟩) ?_
    rw [finishedOf_closing, hflight, hflight', Sighting.finished?, if_pos rfl]
    rfl
  | ignored hstale =>
    rw [seen_stale hstale]
    refine h.still (fun σ hσ => absurd hσ List.not_mem_nil) ?_
    rw [hflight, hflight']
    rfl

/-- Every event keeps the requests of every key in their blocks. -/
theorem Batched.move {event : Event} {effects : List Effect} (h : Batched key s j)
    (hs : s.Sound) (hrec : Recorded s j) (htally : Tallied s j)
    (hmove : Move settings s event t effects) :
    Batched key t (j ++ seen (s.requests + 1) event effects) := by
  by_cases hclear : event = .clear
  · subst hclear
    obtain ⟨rfl, rfl⟩ := hmove.of_clear
    exact h.clear hrec
  · by_cases hkey : event.key? = some key
    · refine batched_own h hs hrec (fun hn => ?_) (hmove.change hs hkey)
      have hreg := htally.registered_of_dropped hrec hn
      rw [List.mem_range'_1] at hreg
      omega
    · refine h.still (still_other hmove hclear hkey) ?_
      rw [(hmove.frame hs hclear hkey).2]
      exact congrArg (· ++ _) (finishedOf_other hmove hkey)

end Moves

/-- What every event keeps holds after all events. -/
theorem batched_after (settings : SchedulerSettings) (events : List Event) (key : String) :
    Batched key (after settings {} events) (journal settings {} events) := by
  induction events using List.reverseRecOn with
  | nil => exact ⟨rfl, rfl, rfl, fun block hblock => (nomatch hblock), rfl⟩
  | append_singleton events e ih =>
    have hs := sound_after settings events
    rw [after_concat, journal_concat]
    exact ih.move hs (recorded_after settings events) (tallied_after settings events)
      (step_move settings hs e)

-- ── What follows for the runs of a key ────────────────────────────────────────

/-- A run of a key is in flight exactly if one has started and not finished. -/
theorem Batched.inFlight_iff {key : String} {s : Scheduler} {j : List Sighting}
    (h : Batched key s j) : InFlight key j ↔ ∃ r, s.flight? key = some r := by
  have hlength := congrArg List.length h.covers
  rw [List.length_append, List.length_map] at hlength
  rw [InFlight, ← hlength]
  cases s.flight? key <;> simp

/-- There are no more runs than requests. -/
theorem Batched.runs_le {key : String} {s : Scheduler} {j : List Sighting}
    (h : Batched key s j) : (blocks key j).length ≤ (requestsOf key j).length := by
  have hlengths : (blocks key j).length ≤ (blocks key j).flatten.length := by
    rw [List.length_flatten, ← List.length_map List.length]
    refine List.length_le_sum_of_one_le _ fun n hn => ?_
    obtain ⟨block, hblock, rfl⟩ := List.mem_map.mp hn
    exact List.length_pos_iff.mpr (h.nonempty block hblock)
  have horder := congrArg List.length h.order
  rw [List.length_append] at horder
  have hkept : (undropped j (requestsOf key j)).length ≤ (requestsOf key j).length :=
    List.length_filter_le _ _
  omega

end ProofLedger.Scheduler
