import ProofLedger.Proofs.Ledger.OneMore
import ProofLedger.Proofs.Session.Freshness
import ProofLedger.Proofs.Session.TacticKey

/-!
# Applied tactics

A tactic that is applied is executed once and recorded once. Three things have to fit together for
that: the attempt is counted under the key that the executor was sent (`resolvedKey?_attemptOf`),
recording it adds one attempt to what the store holds (`appends_record`), and the sync that follows
leaves what is recorded alone, whatever else it sets off (`records_sync`). A tactic that cannot be
applied leaves everything as it is (`applyTactic_appends`).
-/

namespace ProofLedger

open Scheduler

-- ── What a worker keeps ───────────────────────────────────────────────────────

/-- Whether runs and tasks keep a property of the world. -/
structure Worker.Keeps {World : Type} (w : Worker World) (P : World → Prop) : Prop where
  run : ∀ world key reason, P world → P (w.run world key reason).world
  task : ∀ world request, P world → P (w.task world request).world

namespace Worker.Keeps

variable {World : Type} {w : Worker World} {P : World → Prop} (hw : w.Keeps P)
  (settings : SchedulerSettings) {t : Timeline World}

include hw

/-- An effect keeps what the runs and the tasks keep. -/
theorem perform (h : P t.world) (f : Effect) : P (t.perform w f).world := by
  cases f with
  | startRun key epoch reason => exact hw.run t.world key reason h
  | startTask key epoch request => exact hw.task t.world request h
  | arm | disarm | resolve => exact h

/-- An event that is told keeps what the runs and the tasks keep. -/
theorem tell (h : P t.world) (e : Event) : P (t.tell settings w e).world := by
  have hfold : ∀ (effects : List Effect) {t : Timeline World}, P t.world →
      P (effects.foldl (Timeline.perform w) t).world := by
    intro effects
    induction effects with
    | nil => exact fun h => h
    | cons f rest ih => exact fun h => ih (hw.perform h f)
  have hobserved : (t.observed e).world = t.world := by cases e <;> rfl
  rw [Timeline.tell]
  refine hfold _ ?_
  show P (t.observed e).world
  rw [hobserved]
  exact h

/-- What the runs and the tasks keep holds at any deadline. -/
theorem runUntil (deadline fuel : Nat) (h : P t.world) :
    P (t.runUntil settings w deadline fuel).world := by
  induction fuel generalizing t with
  | zero => exact h
  | succ fuel ih =>
    rw [Timeline.runUntil, Timeline.next?]
    cases t.agenda.next? deadline with
    | none => exact h
    | some x =>
      obtain ⟨⟨due, e⟩, rest⟩ := x
      exact ih (hw.tell settings (t := { t with now := max t.now due, agenda := rest }) h e)

/-- What the runs and the tasks keep holds when a request is resolved. -/
theorem await (request fuel : Nat) (h : P t.world) :
    P (t.await settings w request fuel).world := by
  induction fuel generalizing t with
  | zero => exact h
  | succ fuel ih =>
    rw [Timeline.await]
    split
    · exact h
    · cases t.agenda with
      | nil => exact h
      | cons x rest => exact ih (hw.runUntil settings (t.now + (x.1 - t.now)) t.workload h)

/-- Whatever happens until a request is resolved keeps the property. -/
theorem scheduleAndWait (h : P t.world) (r : SyncRequest) :
    P (t.scheduleAndWait settings w r).world := by
  rw [Timeline.scheduleAndWait]
  exact hw.await settings _ _ (hw.tell settings h (.schedule r))

end Worker.Keeps

/-- Syncs write to the files of a tree and to no other section. -/
theorem Workspace.keeps_sections (tree : Json) :
    worker.Keeps fun w => ∀ name, name ≠ "files" → w.tree.get? name = tree.get? name where
  run w fileKey _ h name hname := by
    rw [← h name hname]
    refine Patch.get?_applyAll_ne (fun p hp => ?_) w.tree
    obtain ⟨rest, hpath⟩ := path_syncPatches w fileKey p hp
    exact ⟨"files", Ne.symm hname, fileKey, rest, hpath⟩
  task _ _ h := h

-- ── Recording in a session ────────────────────────────────────────────────────

namespace Session

/-- A sync leaves histories and patterns alone, and so does all that happens meanwhile. -/
theorem records_sync (s : Session) (r : SyncRequest) :
    (s.sync r).workspace.state.history = s.workspace.state.history ∧
      (s.sync r).workspace.state.patterns = s.workspace.state.patterns := by
  have hkept := (Workspace.keeps_sections s.workspace.tree).scheduleAndWait s.scheduling
    (t := s.timeline) (fun _ _ => rfl) r
  have hsection : ∀ {α : Type} (read : Json → Option α) {name : String}, name ≠ "files" →
      ProofState.readSection (s.sync r).workspace.tree name read =
        ProofState.readSection s.workspace.tree name read := by
    intro α read name hname
    have hget : (s.sync r).workspace.tree.get? name = s.workspace.tree.get? name :=
      hkept name hname
    rw [ProofState.readSection, hget]
    rfl
  exact ⟨hsection _ (by decide), hsection _ (by decide)⟩

/-- A sync does not change how many requests were made. -/
@[simp] theorem requests_sync (s : Session) (r : SyncRequest) :
    (s.sync r).requests = s.requests := rfl

/-- A sync leaves the executor alone. -/
@[simp] theorem executor_sync (s : Session) (r : SyncRequest) :
    (s.sync r).executor = s.executor := rfl

@[simp] theorem requests_record (s : Session) (a : AttemptInput) :
    (s.record a).1.requests = s.requests := by
  rw [record]
  dsimp only
  split <;> rfl

@[simp] theorem executor_record (s : Session) (a : AttemptInput) :
    (s.record a).1.executor = s.executor := by
  rw [record]
  dsimp only
  split <;> rfl

/-- Whether a session can record attempts on an obligation: its store can be read, its histories
    are numbered, its clock shows a time, and neither file nor node is blank. -/
structure Ready (s : Session) (fileKey nodeId : String) : Prop where
  tree : IsStateTree s.workspace.tree
  numbered : s.workspace.state.AllNumbered
  clock : s.workspace.clock.IsReal
  fileKey : Text.isBlankText fileKey = false
  nodeId : Text.isBlankText nodeId = false

/-- What a session records is what the ledger notes. -/
theorem state_record {s : Session} {a : AttemptInput} {tacticKey : String}
    (htree : IsStateTree s.workspace.tree) (hclock : s.workspace.clock.IsReal)
    (hobject : Json.ObjectAt (StatePath.nodeHistory a.fileKey a.nodeId) s.workspace.tree)
    (hkey : a.resolvedKey? = some tacticKey) :
    (s.record a).1.workspace.state = s.workspace.state.noted
      ⟨a, tacticKey, s.workspace.clock, Ledger.signatureOf s.workspace.state a⟩ := by
  have htree' : (s.record a).1.workspace.tree = Patch.applyAll
      (Ledger.record s.workspace.state a s.workspace.clock) s.workspace.tree := by
    rw [record]
    dsimp only
    split
    · next hempty => rw [List.isEmpty_iff.mp hempty]; rfl
    · rfl
  have hhome : (Operation.record a s.workspace.clock).HomeIsObject s.workspace.tree := by
    intro path hpath
    rw [Operation.home?, hkey] at hpath
    cases hpath
    exact hobject
  have hrepresents : Represents (Patch.applyAll
      (Ledger.record s.workspace.state a s.workspace.clock) s.workspace.tree)
      (Ledger.recorded s.workspace.state a s.workspace.clock) :=
    Operation.represents_step s.ranking htree.represents
      (show (Operation.record a s.workspace.clock).time.IsReal from hclock) hhome
  have hstate := hrepresents.isStateTree.2
  show ProofState.ofJson (s.record a).1.workspace.tree = _
  rw [htree', hstate]
  exact Ledger.recorded_eq_noted s.workspace.clock hkey

-- ── Answers of the executor ───────────────────────────────────────────────────

/-- Whether an outcome is what an answer of the executor amounts to. -/
structure Settles (answer : ExecutorAnswer) (outcome : SettledOutcome) : Prop where
  /-- the gaps of what the executor says are filled -/
  filled : ∀ o, answer = .ok o → outcome = .ofOutcome o
  /-- a failed call counts as a tactic that was not applied, with the text of the failure -/
  failed : ∀ reason, answer = .error reason → outcome =
    { applied := false, result := .error, durationMs := none,
      errorMessage := some (Text.trim (Failure.executionFailed reason).message) }
  /-- everything but a success has a message -/
  message : outcome.result.isSuccess = false →
    ∃ m, outcome.errorMessage = some m ∧ Text.isBlankText m = false

/-- An answer of the executor is settled as it should be. -/
theorem settles_settle (answer : ExecutorAnswer) : Settles answer (settle answer) := by
  cases answer with
  | ok o =>
    refine ⟨?_, ?_, SettledOutcome.exists_message⟩
    · intro o' ho
      cases ho
      rfl
    · intro reason hreason
      cases hreason
  | error reason =>
    refine ⟨?_, ?_, SettledOutcome.exists_message⟩
    · intro o ho
      cases ho
    · intro reason' hreason
      cases hreason
      have hsolid : Text.isBlankText (Failure.executionFailed reason).message = false := by
        show ("Tactic execution failed: " ++ reason).toList.all Text.isBlank = false
        rw [String.toList_append, List.all_eq_false]
        exact ⟨'T', List.mem_append_left _ (by decide), by decide⟩
      rw [settle, SettledOutcome.ofOutcome]
      dsimp only [Option.map_some]
      rw [Text.isEmpty_trim hsolid]
      rfl

-- ── Applying ──────────────────────────────────────────────────────────────────

/-- The record of an executed request, under a number. -/
def recordOf (r : TacticRequest) (category : Option Category) (outcome : SettledOutcome)
    (now : Instant) (number : Nat) : AttemptRecord where
  id := attemptId r.nodeId number
  fileKey := r.fileKey
  nodeId := r.nodeId
  timestamp := now
  tactic := Text.trim r.tactic
  tacticKey := r.tacticKey
  result := outcome.result
  category
  errorMessage := outcome.errorMessage
  durationMs := outcome.durationMs

/-- It is the next record of the attempt that the request amounts to. -/
theorem nextRecord_attemptOf (s : ProofState) (r : TacticRequest) (category : Option Category)
    (outcome : SettledOutcome) (now : Instant) (signature : Option String) :
    s.nextRecord ⟨attemptOf r category outcome, r.tacticKey, now, signature⟩ =
      recordOf r category outcome now
        ((s.historyOf r.fileKey r.nodeId).totalAttempts + 1).toNat := rfl

/-- What a session is after a request was executed and recorded. -/
structure Applied (s : Session) (answers : List ExecutorAnswer) (r : TacticRequest)
    (outcome : SettledOutcome) (s' : Session) : Prop where
  /-- the executor was called once, with the request -/
  requests : s'.requests = s.requests ++ [r]
  executor : s'.executor = some answers.tail
  /-- Its answer is settled; an executor without an answer does not apply the tactic. -/
  settles : Settles (answers.head?.getD (.ok { applied := false })) outcome
  /-- There is one more attempt on the node, with the key of the request, the outcome, and the
      category that the obligation had before. -/
  appends : Appends s.workspace.state
    (recordOf r (Recommendation.category? s.workspace.state r.fileKey r.nodeId) outcome
      s.workspace.clock
      ((s.workspace.state.historyOf r.fileKey r.nodeId).totalAttempts + 1).toNat)
    s'.workspace.state

/-- A request that is executed is recorded as one attempt under its own key. -/
theorem appends_record {s : Session} {r : TacticRequest} (hready : s.Ready r.fileKey r.nodeId)
    (hobject : Json.ObjectAt (StatePath.nodeHistory r.fileKey r.nodeId) s.workspace.tree)
    (hkey : tacticKey? r.tactic = some r.tacticKey) {category : Option Category}
    (hroom : s.workspace.state.HasRoom r.fileKey r.nodeId
      (patternKey (category.getD .other) r.tacticKey))
    (outcome : SettledOutcome) :
    Appends s.workspace.state
      (recordOf r category outcome s.workspace.clock
        ((s.workspace.state.historyOf r.fileKey r.nodeId).totalAttempts + 1).toNat)
      (s.record (attemptOf r category outcome)).1.workspace.state := by
  rw [state_record hready.tree hready.clock hobject
    (resolvedKey?_attemptOf hkey hready.fileKey hready.nodeId category outcome),
    ← nextRecord_attemptOf s.workspace.state r category outcome s.workspace.clock
      (Ledger.signatureOf s.workspace.state (attemptOf r category outcome))]
  exact appends_noted hready.numbered hroom

/-- Whether a session can count an attempt with a tactic key. -/
def HasRoom (s : Session) (fileKey nodeId tacticKey : String) : Prop :=
  s.workspace.state.HasRoom fileKey nodeId (patternKey
    ((Recommendation.category? s.workspace.state fileKey nodeId).getD .other) tacticKey)

section Applying

variable {s : Session} {fileKey nodeId tactic : String}

/-- A tactic that has a key is executed, and that is recorded before the file is synced. -/
theorem exists_applied {answers : List ExecutorAnswer} {tacticKey : String}
    (hexecutor : s.executor = some answers) (hkey : tacticKey? tactic = some tacticKey)
    (hready : s.Ready fileKey nodeId)
    (hobject : Json.ObjectAt (StatePath.nodeHistory fileKey nodeId) s.workspace.tree)
    (hroom : s.HasRoom fileKey nodeId tacticKey) :
    ∃ s' applied, s.applyTactic fileKey nodeId tactic = .ok (s', applied) ∧
      Applied s answers ⟨fileKey, nodeId, tactic, tacticKey⟩ applied.outcome s' := by
  let r : TacticRequest := ⟨fileKey, nodeId, tactic, tacticKey⟩
  let category := Recommendation.category? s.workspace.state fileKey nodeId
  let executed := (s.execute answers r).1
  let outcome := (s.execute answers r).2
  let recorded := executed.record (attemptOf r category outcome)
  have happly : s.applyTactic fileKey nodeId tactic =
      .ok (recorded.1.sync (applyRequest fileKey), ⟨outcome, recorded.2⟩) := by
    rw [applyTactic, hexecutor, hkey]
    rfl
  refine ⟨_, _, happly, ?_⟩
  have hexecuted : executed.Ready fileKey nodeId :=
    ⟨hready.tree, hready.numbered, hready.clock, hready.fileKey, hready.nodeId⟩
  have happends := appends_record (r := r) hexecuted hobject hkey hroom outcome
  obtain ⟨hhistory, hpatterns⟩ := records_sync recorded.1 (applyRequest fileKey)
  constructor
  case requests =>
    rw [requests_sync, requests_record]
    rfl
  case executor =>
    rw [executor_sync, executor_record]
    rfl
  case settles => exact settles_settle _
  case appends => exact happends.congr hhistory hpatterns

/-- Without an executor or a tactic that can be recorded there is an error. -/
theorem exists_error (hnone : s.executor = none ∨ tacticKey? tactic = none) :
    ∃ e, s.applyTactic fileKey nodeId tactic = .error e := by
  rw [applyTactic]
  rcases hnone with h | h
  · rw [h]
    exact ⟨_, rfl⟩
  · rw [h]
    cases s.executor <;> exact ⟨_, rfl⟩

/-- Without an executor or a tactic that can be recorded nothing is recorded. -/
theorem recordedTactic_eq_none (hnone : s.executor = none ∨ tacticKey? tactic = none) :
    s.recordedTactic fileKey nodeId tactic = none := by
  rw [recordedTactic]
  rcases hnone with h | h
  · rw [h]
  · rw [h]
    cases s.executor <;> rfl

end Applying

/-- A tactic that has a key is executed once and recorded as one attempt, if the session is ready,
    no counter is full, and the history of the obligation is stored as an object where it is stored
    at all. Without an executor, or without a key of the tactic, there is an error and nothing
    happens. -/
theorem applyTactic_appends (s : Session) (fileKey nodeId tactic : String) :
    (∀ answers tacticKey, s.executor = some answers → tacticKey? tactic = some tacticKey →
      s.Ready fileKey nodeId →
      Json.ObjectAt (StatePath.nodeHistory fileKey nodeId) s.workspace.tree →
      s.HasRoom fileKey nodeId tacticKey →
      ∃ s' applied, s.applyTactic fileKey nodeId tactic = .ok (s', applied) ∧
        Applied s answers ⟨fileKey, nodeId, tactic, tacticKey⟩ applied.outcome s') ∧
    (s.executor = none ∨ tacticKey? tactic = none →
      (∃ e, s.applyTactic fileKey nodeId tactic = .error e) ∧
        s.step (.applyTactic fileKey nodeId tactic) = s ∧
        s.moments (.applyTactic fileKey nodeId tactic) = []) := by
  constructor
  · intro answers tacticKey hexecutor hkey hready hobject hroom
    exact exists_applied hexecutor hkey hready hobject hroom
  · intro hnone
    have hrecorded : s.recordedTactic fileKey nodeId tactic = none := recordedTactic_eq_none hnone
    refine ⟨exists_error hnone, ?_, ?_⟩
    · rw [step_applyTactic, hrecorded]
      rfl
    · rw [moments, hrecorded]
      rfl

theorem wellFormed_provedOnce : Ledger.provedOnce.WellFormed :=
  .ofFields (by simp [Json.WellFormed.ofFields, Json.WellFormed.string, Json.WellFormed.int])

/-- A session on a tree with the history of one obligation, whose executor fails at the first
    call. -/
def crashing (history : Json) : Session :=
  opened { tree := Operation.treeOf history, clock := ⟨1709294400, 0⟩ } {} {}
    (some [.error "lean server crashed"])

theorem ready_crashing {history : Json} (hwf : history.WellFormed)
    (hread : (Json.asTableOf? (Json.asTableOf? NodeHistory.ofJson?)
      ((Operation.treeOf history).getD "history")).isSome = true)
    (hhistory : (crashing history).workspace.state.history = Table.empty.insert "Main.lean"
      (Table.empty.insert "n" ((crashing history).workspace.state.historyOf "Main.lean" "n")))
    (hnumbered : ((crashing history).workspace.state.historyOf "Main.lean" "n").Numbered "n") :
    (crashing history).Ready "Main.lean" "n" where
  tree := Operation.isStateTree_treeOf hwf hread
  numbered fileKey nodeId := by
    generalize (crashing history).workspace.state.historyOf "Main.lean" "n" = h
      at hhistory hnumbered
    rw [ProofState.historyOf, Ledger.nodeHistory?_eq, hhistory]
    by_cases hfile : "Main.lean" = fileKey
    · rw [hfile, Table.get?_insert_self, Option.getD_some]
      by_cases hnode : "n" = nodeId
      · rw [← hnode, Table.get?_insert_self]
        exact hnumbered
      · rw [Table.get?_insert_ne _ hnode]
        exact List.Perm.nil
    · rw [Table.get?_insert_ne _ hfile]
      exact List.Perm.nil
  clock := (by decide : (Instant.mk 1709294400 0).IsReal)
  fileKey := by decide
  nodeId := by decide

/-- The failed call is recorded after the success that is stored. A tactic without a word is not
    sent to the executor. -/
theorem applyTactic_appends_crashing :
    let s := crashing Ledger.provedOnce
    s.Ready "Main.lean" "n" ∧
      Json.ObjectAt (StatePath.nodeHistory "Main.lean" "n") s.workspace.tree ∧
      s.HasRoom "Main.lean" "n" "simp" ∧
      (∃ s' applied, s.applyTactic "Main.lean" "n" "Simp [foo]" = .ok (s', applied) ∧
        Applied s [.error "lean server crashed"] ⟨"Main.lean", "n", "Simp [foo]", "simp"⟩
          applied.outcome s') ∧
      s.step (.applyTactic "Main.lean" "n" " ;") = s := by
  intro s
  have hready : s.Ready "Main.lean" "n" := by
    refine ready_crashing wellFormed_provedOnce ?_ ?_ ?_ <;> decide +kernel
  have hobject : Json.ObjectAt (StatePath.nodeHistory "Main.lean" "n") s.workspace.tree := by
    intro w hw
    cases hw
    rfl
  have hkey : tacticKey? "Simp [foo]" = some "simp" := by decide +kernel
  have hnone : tacticKey? " ;" = none := by decide +kernel
  have hroom : s.HasRoom "Main.lean" "n" "simp" := by
    constructor <;> decide +kernel
  exact ⟨hready, hobject, hroom,
    (applyTactic_appends s "Main.lean" "n" "Simp [foo]").1 _ "simp" rfl hkey hready hobject hroom,
    ((applyTactic_appends s "Main.lean" "n" " ;").2 (.inr hnone)).2.1⟩

/-- The same history, stored as an array of its fields. -/
def provedOnceListed : Json :=
  .array [Ledger.provedOnce.getD "attempts", .int 0, .int 1, .null, .null, .null]

/-- The success is lost from a history that is stored as an array of its fields. -/
theorem not_appends_listed :
    let s := crashing provedOnceListed
    let s' := s.step (.applyTactic "Main.lean" "n" "simp")
    s.Ready "Main.lean" "n" ∧
      (∃ r, (s.workspace.state.historyOf "Main.lean" "n").attempts.get? "n#000001" = some r) ∧
      (s'.workspace.state.historyOf "Main.lean" "n").attempts.get? "n#000001" = none ∧
      ¬∃ after applied, s.applyTactic "Main.lean" "n" "simp" = .ok (after, applied) ∧
        Applied s [.error "lean server crashed"] ⟨"Main.lean", "n", "simp", "simp"⟩
          applied.outcome after := by
  intro s s'
  have hwf : provedOnceListed.WellFormed := .array (by
    simp [wellFormed_provedOnce.getD "attempts", Json.WellFormed.int, Json.WellFormed.null])
  have hready : s.Ready "Main.lean" "n" := by
    refine ready_crashing hwf ?_ ?_ ?_ <;> decide +kernel
  obtain ⟨r, hr⟩ := Option.isSome_iff_exists.mp (show ((s.workspace.state.historyOf "Main.lean"
    "n").attempts.get? "n#000001").isSome = true by decide +kernel)
  have hlost : (s'.workspace.state.historyOf "Main.lean" "n").attempts.get? "n#000001" = none := by
    decide +kernel
  refine ⟨hready, ⟨r, hr⟩, hlost, ?_⟩
  rintro ⟨after, applied, happly, happlied⟩
  have hafter : s' = after := by
    show s.step (.applyTactic "Main.lean" "n" "simp") = after
    rw [step, happly]
  have hnext : attemptId "n"
      ((s.workspace.state.historyOf "Main.lean" "n").totalAttempts + 1).toNat ≠ "n#000001" := by
    decide +kernel
  have hattempts := congrArg (·.get? "n#000001") happlied.appends.attempts
  rw [hafter] at hlost
  exact absurd ((hlost.symm.trans hattempts).trans
    ((Table.get?_insert_ne _ hnext _).trans hr)) (by simp)

end Session

end ProofLedger
