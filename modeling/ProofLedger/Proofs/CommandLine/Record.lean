import ProofLedger.CommandLine.Program
import ProofLedger.Proofs.Ledger.Latest

/-!
# What recording reports

The command that records an attempt keeps no record of it. It commits the patches, reads the state
again, and reports the latest attempt on the obligation (`Ledger.Chronicles.tells_ofState`). So
the counters are those after the attempt, but the attempt that is named is the recorded one only
as long as none before it has a later time. After the clock was set back, the command names an
attempt of an earlier invocation (`Operation.not_report_names_recorded`).

The store may be any that does what is expected of it: `StateStore.Serves`.
-/

namespace ProofLedger

variable {σ : Type}

-- ── Runs of commands ──────────────────────────────────────────────────────────

section Run

variable {ε ε' α β : Type} {w w' : σ} {x : ExceptT ε (StateM σ) α} {a : α}

theorem run_bind_ok (f : α → ExceptT ε (StateM σ) β) (h : x.run.run w = (.ok a, w')) :
    (x >>= f).run.run w = (f a).run.run w' := by
  rw [ExceptT.run_bind, StateT.run_bind, h]
  rfl

theorem run_adapt_ok (f : ε → ε') (h : x.run.run w = (.ok a, w')) :
    (x.adapt f).run.run w = (.ok a, w') := by
  show (x.run >>= fun r => pure (r.mapError f)).run w = _
  rw [StateT.run_bind, h]
  rfl

theorem run_liftM (x : StateM σ α) (w : σ) :
    (liftM x : ExceptT ε (StateM σ) α).run.run w = (.ok (x.run w).1, (x.run w).2) := rfl

end Run

-- ── Stores ────────────────────────────────────────────────────────────────────

/-- Whether a store serves the trees that it holds: a snapshot is the state in the tree and
    leaves the tree as it is, and patches are applied to the tree. -/
structure StateStore.Serves (store : StateStore (StateM σ)) (holds : σ → Json → Prop) : Prop where
  snapshot : ∀ {w tree}, holds w tree →
    ∃ w', store.snapshot.run.run w = (.ok (.ofJson tree), w') ∧ holds w' tree
  apply : ∀ {w tree} patches, holds w tree →
    ∃ w', (store.apply patches).run.run w = (.ok (), w') ∧ holds w' (Patch.applyAll patches tree)

/-- The store in memory serves the tree that it is. -/
theorem StateStore.serves_inMemory : StateStore.inMemory.Serves Eq where
  snapshot := by
    rintro tree _ rfl
    exact ⟨tree, rfl, rfl⟩
  apply := by
    rintro tree _ patches rfl
    exact ⟨Patch.applyAll patches tree, rfl, rfl⟩

namespace Project

variable {p : Project (StateM σ)} {holds : σ → Json → Prop} {w : σ} {tree : Json}

/-- The time of an attempt that is recorded: what the clock shows once the state is read. -/
def timeOfRecording (p : Project (StateM σ)) (w : σ) : Instant :=
  (p.now.run (p.snapshot.run.run w).2).1

theorem run_snapshot (hstore : p.store.Serves holds) (hw : holds w tree) :
    ∃ w', p.snapshot.run.run w = (.ok (.ofJson tree), w') ∧ holds w' tree := by
  obtain ⟨w', hread, hw'⟩ := hstore.snapshot hw
  exact ⟨w', run_adapt_ok _ hread, hw'⟩

theorem run_commit (hstore : p.store.Serves holds) (patches : List Patch) (hw : holds w tree) :
    ∃ w', (p.commit patches).run.run w = (.ok (), w') ∧ holds w' (Patch.applyAll patches tree) := by
  obtain ⟨w', hwrite, hw'⟩ := hstore.apply patches hw
  exact ⟨w', run_adapt_ok _ hwrite, hw'⟩

/-- Recording an attempt applies its patches to the tree, and reports on what is stored then. -/
theorem run_record (hstore : p.store.Serves holds)
    (hclock : ∀ w tree, holds w tree → holds (p.now.run w).2 tree) (hw : holds w tree)
    (a : AttemptInput) :
    let patches := Ledger.record (.ofJson tree) a (p.timeOfRecording w)
    let after := Patch.applyAll patches tree
    ∃ w', (p.record a).run.run w =
        (.ok (.ofState (.ofJson after) a.fileKey a.nodeId patches.length), w') ∧
      holds w' after := by
  intro patches after
  obtain ⟨w₁, hread, hw₁⟩ := run_snapshot hstore hw
  have hnow : (p.now.run w₁).1 = p.timeOfRecording w := by rw [timeOfRecording, hread]
  have hw₂ := hclock w₁ tree hw₁
  rw [record, run_bind_ok _ hread, run_bind_ok _ (run_liftM p.now w₁), hnow]
  dsimp only
  cases hempty : patches.isEmpty with
  | true =>
    have hafter : after = tree := by
      show Patch.applyAll patches tree = tree
      rw [List.isEmpty_iff.mp hempty]
      rfl
    obtain ⟨w', hreread, hw'⟩ := run_snapshot hstore (hafter ▸ hw₂ : holds _ after)
    refine ⟨w', ?_, hw'⟩
    rw [if_neg (by decide), run_bind_ok _ hreread]
    rfl
  | false =>
    obtain ⟨w₃, hwrite, hw₃⟩ := run_commit hstore patches hw₂
    obtain ⟨w', hreread, hw'⟩ := run_snapshot hstore hw₃
    refine ⟨w', ?_, hw'⟩
    rw [if_pos (by decide), run_bind_ok _ hwrite, run_bind_ok _ hreread]
    rfl

/-- Carrying out the command is recording the attempt that its arguments make. -/
theorem run_execute_record {a : AttemptInput} {report : RecordReport} {w' : σ}
    {result : String} {category : Option String} (asJson : Bool)
    (hresult : resultNamed result = .ok a.result)
    (hcategory : categoryNamed category = .ok a.category)
    (hrun : (p.record a).run.run w = (.ok report, w')) :
    (Program.execute p asJson (.record a.fileKey a.nodeId a.tactic result a.tacticKey category
        a.errorMessage a.goalText a.durationMs)).run.run w =
      (.ok (Program.succeed asJson report.text report.toJson), w') := by
  have hdemand : ∀ {α : Type} {v : Except CommandFault α} {b : α}, v = .ok b →
      (demand v : ExceptT CommandFault (StateM σ) α).run.run w = (.ok b, w) := by
    rintro α _ b rfl
    rfl
  rw [Program.execute, run_bind_ok _ (hdemand hresult), run_bind_ok _ (hdemand hcategory),
    run_bind_ok _ hrun]
  rfl

end Project

-- ── The report ────────────────────────────────────────────────────────────────

namespace Ledger

variable {s : ProofState} {fileKey nodeId : String} {made : List Submission}

theorem length_record {a : AttemptInput} {tacticKey : String} (now : Instant)
    (hkey : a.resolvedKey? = some tacticKey) : (record s a now).length = 3 := by
  rw [record, hkey]
  rfl

/-- There is a history of what was tried. -/
theorem Chronicles.nodeHistory?_eq (hc : Chronicles nodeId made (s.historyOf fileKey nodeId))
    (hmade : made ≠ []) :
    s.nodeHistory? fileKey nodeId = some (s.historyOf fileKey nodeId) := by
  cases hhistory : s.nodeHistory? fileKey nodeId with
  | some h => rw [ProofState.historyOf, hhistory, Option.getD_some]
  | none =>
    have htotal := hc.total
    rw [ProofState.historyOf, hhistory] at htotal
    exact absurd (List.eq_nil_of_length_eq_zero htotal.symm) hmade

/-- Whether a report tells of an attempt that was recorded after others on its obligation. -/
structure Tells (r : RecordReport) (made : List Submission) (last : Submission) : Prop where
  recorded : r.recorded = true
  patches : r.patches = 3
  /-- the recorded attempt is counted -/
  total : r.totalAttempts.toNat = made.length + 1
  streak : r.currentStreak = min (streakOf (made ++ [last])) (2 ^ 32 - 1)
  /-- the attempt that is named is the latest one -/
  latest : ∃ k a, IsLatest last.input.nodeId (made ++ [last]) k a ∧
    r.attemptId = some (attemptId last.input.nodeId (k + 1)) ∧ r.tacticKey = some a.tacticKey
  /-- it is the recorded one, if the clock was not set back, and was not read twice at one time
      after a million attempts -/
  own : (∀ earlier ∈ made, earlier.time < last.time ∨
      (earlier.time = last.time ∧ made.length + 1 < 1000000)) →
    r.attemptId = some (attemptId last.input.nodeId (made.length + 1)) ∧
      r.tacticKey = some last.tacticKey

/-- What is reported of a state whose history is the account of attempts. -/
theorem Chronicles.tells_ofState {last : Submission}
    (hc : Chronicles last.input.nodeId (made ++ [last])
      (s.historyOf fileKey last.input.nodeId)) :
    Tells (RecordReport.ofState s fileKey last.input.nodeId 3) made last := by
  have hmade : made ++ [last] ≠ [] := List.append_ne_nil_of_right_ne_nil _ (List.cons_ne_nil _ _)
  obtain ⟨k, a, hlatest, hread, hid⟩ := hc.exists_latest? hmade
  have hhistory := hc.nodeHistory?_eq hmade
  have hnamed : (RecordReport.ofState s fileKey last.input.nodeId 3).attemptId =
        some (attemptId last.input.nodeId (k + 1)) ∧
      (RecordReport.ofState s fileKey last.input.nodeId 3).tacticKey = some a.tacticKey := by
    rw [RecordReport.ofState, hhistory, Option.bind_some, hread, ← hid]
    exact ⟨rfl, rfl⟩
  refine ⟨rfl, rfl, ?_, ?_, ⟨k, a, hlatest, hnamed⟩, fun hclock => ?_⟩
  · rw [RecordReport.ofState, hhistory]
    show (s.historyOf fileKey last.input.nodeId).totalAttempts.toNat = _
    rw [hc.total, List.length_append, List.length_singleton]
  · rw [RecordReport.ofState, hhistory]
    exact hc.streak
  · obtain ⟨rfl, rfl⟩ := hlatest.eq_last hclock
    exact hnamed

end Ledger

-- ── The command after a run ───────────────────────────────────────────────────

namespace Operation

open Ledger

/-- The command that records a valid attempt, given a store that holds what a run made: the
    attempt is appended to its history, and the report tells of it, if its number is one of
    64 bits. -/
theorem report_of_record (settings : RankingSettings) {tree : Json} (hempty : IsEmptyTree tree)
    {prior : List Operation} (hprior : AllReal prior) {p : Project (StateM σ)}
    {holds : σ → Json → Prop} (hstore : p.store.Serves holds)
    (hclock : ∀ w tree, holds w tree → holds (p.now.run w).2 tree) {w : σ}
    (hw : holds w (runAll settings tree prior)) (hnow : (p.timeOfRecording w).IsReal)
    {a : AttemptInput} {tacticKey : String} (hkey : a.resolvedKey? = some tacticKey)
    {result : String} {category : Option String}
    (hresult : Project.resultNamed result = .ok a.result)
    (hcategory : Project.categoryNamed category = .ok a.category) (asJson : Bool)
    (hroom : (attemptsOn a.fileKey a.nodeId (submissions settings tree prior)).length + 1 <
      UInt64.size) :
    let before := runAll settings tree prior
    let after := runAll settings tree (prior ++ [.record a (p.timeOfRecording w)])
    let made := attemptsOn a.fileKey a.nodeId (submissions settings tree prior)
    let last : Submission :=
      ⟨a, tacticKey, p.timeOfRecording w, signatureOf (.ofJson before) a⟩
    ∃ (report : RecordReport) (w' : σ),
      (Program.execute p asJson (.record a.fileKey a.nodeId a.tactic result a.tacticKey category
          a.errorMessage a.goalText a.durationMs)).run.run w =
        (.ok (Program.succeed asJson report.text report.toJson), w') ∧
      holds w' after ∧
      ((ProofState.ofJson after).historyOf a.fileKey a.nodeId).attempts.get?
        (attemptId a.nodeId (made.length + 1)) = some (last.record (made.length + 1)) ∧
      Tells report made last := by
  intro before after made last
  obtain ⟨w', hrun, hw'⟩ := Project.run_record hstore hclock hw a
  have hafter : Patch.applyAll (Ledger.record (.ofJson before) a (p.timeOfRecording w)) before =
      after := (runAll_concat settings tree prior (.record a _)).symm
  have hreal : AllReal (prior ++ [.record a (p.timeOfRecording w)]) := by
    intro op hop
    rcases List.mem_append.mp hop with hop | hop
    · exact hprior op hop
    · rw [List.mem_singleton.mp hop]
      exact hnow
  have hmade : attemptsOn a.fileKey a.nodeId
      (submissions settings tree (prior ++ [.record a (p.timeOfRecording w)])) =
        made ++ [last] := by
    have hon : last.isOn a.fileKey a.nodeId = true := by simp [last, Submission.isOn]
    rw [submissions_concat, submission?, hkey, Option.map_some, Option.toList_some,
      attemptsOn_concat, if_pos hon]
  have hchronicles : Chronicles last.input.nodeId (made ++ [last])
      ((ProofState.ofJson after).historyOf a.fileKey last.input.nodeId) :=
    hmade ▸ allChronicled_run settings hempty hreal a.fileKey a.nodeId
      (by rw [hmade, List.length_append, List.length_singleton]; exact hroom)
  rw [length_record _ hkey, hafter] at hrun
  refine ⟨_, w', Project.run_execute_record asJson hresult hcategory hrun, hafter ▸ hw', ?_, ?_⟩
  · exact hchronicles.stored made.length last List.getElem?_concat_length
  · exact hchronicles.tells_ofState

/-- A project with its state in memory, without files, at a time of day. -/
def projectAt (now : Instant) : Project (StateM Json) where
  files :=
    { read := fun _ => pure (.error .notFound)
      write := fun _ _ => pure (.error .notFound)
      rename := fun _ _ => pure (.error .notFound)
      createDirs := fun _ => pure (.error .notFound)
      remove := fun _ => pure () }
  environment := []
  now := pure now
  wait _ := pure ()
  settings := {}
  store := .inMemory

/-- A failed attempt on the node of `attemptAt`. -/
def failedSimp : AttemptInput :=
  { fileKey := "Main.lean", nodeId := "n", tactic := "simp", result := .error }

/-- Ten seconds after a success, a failed attempt is reported under its own id and key. -/
theorem report_of_record_later :
    IsEmptyTree .null ∧ AllReal [attemptAt "ring" .success 20] ∧
      ∃ (report : RecordReport) (tree : Json),
        (Program.execute (projectAt ⟨30, 0⟩) false (.record "Main.lean" "n" "simp" "error" none
            none none none none)).run.run (runAll {} .null [attemptAt "ring" .success 20]) =
          (.ok (Program.succeed false report.text report.toJson), tree) ∧
        report.attemptId = some "n#000002" ∧ report.tacticKey = some "simp" ∧
        report.totalAttempts.toNat = 2 ∧ report.currentStreak = 1 := by
  have hprior : AllReal [attemptAt "ring" .success 20] := by decide
  have hkey : failedSimp.resolvedKey? = some "simp" := by decide +kernel
  have hresult : Project.resultNamed "error" = .ok failedSimp.result := by decide
  have hcategory : Project.categoryNamed none = .ok failedSimp.category := rfl
  obtain ⟨report, tree, hrun, -, -, htells⟩ :=
    report_of_record {} (Or.inr rfl) hprior (p := projectAt ⟨30, 0⟩) StateStore.serves_inMemory
      (fun _ _ h => h) rfl (by decide) hkey hresult hcategory false (by decide +kernel)
  have hearlier : ∀ earlier ∈ attemptsOn "Main.lean" "n"
      (submissions {} .null [attemptAt "ring" .success 20]), earlier.time < ⟨30, 0⟩ := by
    decide +kernel
  obtain ⟨hid, htacticKey⟩ := htells.own fun earlier h => Or.inl (hearlier earlier h)
  refine ⟨Or.inr rfl, hprior, report, tree, hrun, hid.trans ?_, htacticKey, htells.total.trans ?_,
    htells.streak.trans ?_⟩
  · decide +kernel
  · decide +kernel
  · decide +kernel

/-- The attempt that is named need not be the recorded one: a success, with the clock set back
    after it, is what the command names when it has recorded a failed attempt. -/
theorem not_report_names_recorded :
    ¬ ∀ (prior : List Operation) (now : Instant) (a : AttemptInput) (tacticKey : String)
        (report : RecordReport) (tree : Json),
      AllReal prior → now.IsReal → a.resolvedKey? = some tacticKey →
      ((projectAt now).record a).run.run (runAll {} .null prior) = (.ok report, tree) →
      report.attemptId = some (attemptId a.nodeId
          ((attemptsOn a.fileKey a.nodeId (submissions {} .null prior)).length + 1)) ∧
        report.tacticKey = some tacticKey := by
  intro hall
  have hprior : AllReal [attemptAt "ring" .success 40] := by decide
  obtain ⟨tree, hrun, -⟩ := Project.run_record (p := projectAt ⟨30, 0⟩) StateStore.serves_inMemory
    (fun _ _ h => h) (rfl : runAll {} .null [attemptAt "ring" .success 40] = _) failedSimp
  have hnamed := hall [attemptAt "ring" .success 40] ⟨30, 0⟩ failedSimp "simp" _ tree hprior
    (by decide) (by decide +kernel) hrun
  exact absurd hnamed.2 (by decide +kernel)

end Operation

end ProofLedger
