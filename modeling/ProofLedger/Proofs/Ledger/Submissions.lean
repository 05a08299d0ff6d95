import ProofLedger.Proofs.State.Run

/-!
# The attempts of a run

A run of operations makes a list of attempts: one for every recording whose input is valid, in the
order of the run. This is the second side of every statement about what a run has recorded. An
operation changes histories and patterns only by recording an attempt (`change_cases`), so that
what the empty state satisfies, and every recorded attempt keeps, holds after every run
(`run_induction`).
-/

namespace ProofLedger

/-- A valid attempt as it was submitted: with the key it is counted under, its time, and the
    signature of the goal that was known then. -/
structure Submission where
  input : AttemptInput
  tacticKey : String
  time : Instant
  signature : Option String
  deriving DecidableEq, Repr

namespace Submission

/-- Whether it is an attempt on a node of a file. -/
def isOn (fileKey nodeId : String) (a : Submission) : Bool :=
  a.input.fileKey == fileKey && a.input.nodeId == nodeId

/-- Whether it was a success. -/
def succeeded (a : Submission) : Bool := a.input.result.isSuccess

/-- The class it is counted in; without a category that of all other failures. -/
def tacticClass (a : Submission) : TacticClass := ⟨a.input.category.getD .other, a.tacticKey⟩

/-- Its record under a number. -/
def record (a : Submission) (number : Nat) : AttemptRecord where
  id := attemptId a.input.nodeId number
  fileKey := a.input.fileKey
  nodeId := a.input.nodeId
  timestamp := a.time
  tactic := Text.trim a.input.tactic
  tacticKey := a.tacticKey
  result := a.input.result
  category := a.input.category
  errorMessage := a.input.errorMessage
  durationMs := a.input.durationMs

end Submission

-- ── What recording an attempt changes ─────────────────────────────────────────

namespace ProofState

/-- The history of an obligation, the empty one if nothing was tried on it. -/
def historyOf (s : ProofState) (fileKey nodeId : String) : NodeHistory :=
  (s.nodeHistory? fileKey nodeId).getD {}

/-- The record of an attempt under the next number of its obligation. -/
def nextRecord (s : ProofState) (a : Submission) : AttemptRecord :=
  a.record ((s.historyOf a.input.fileKey a.input.nodeId).totalAttempts + 1).toNat

/-- The histories with one more attempt. -/
def historyWith (s : ProofState) (a : Submission) : Table (Table NodeHistory) :=
  s.history.insert a.input.fileKey
    (((s.history.get? a.input.fileKey).getD Table.empty).insert a.input.nodeId
      (Ledger.appended (some (s.historyOf a.input.fileKey a.input.nodeId)) (s.nextRecord a)))

/-- The patterns with one more attempt. -/
def patternsWith (s : ProofState) (a : Submission) : Table PatternEntry :=
  s.patterns.insert (patternKey a.tacticClass.category a.tacticClass.tacticKey)
    (Ledger.observedPattern s (s.nextRecord a) a.signature a.time)

/-- A state with an attempt recorded. -/
def noted (s : ProofState) (a : Submission) : ProofState :=
  { s with history := s.historyWith a, patterns := s.patternsWith a }

theorem historyOf_congr {s s' : ProofState} (h : s'.history = s.history)
    (fileKey nodeId : String) : s'.historyOf fileKey nodeId = s.historyOf fileKey nodeId := by
  rw [historyOf, historyOf, Ledger.nodeHistory?_eq, Ledger.nodeHistory?_eq, h]

/-- An attempt changes the history of its own obligation and no other. -/
theorem historyOf_noted (s : ProofState) (a : Submission) (fileKey nodeId : String) :
    (s.noted a).historyOf fileKey nodeId =
      if a.isOn fileKey nodeId then
        Ledger.appended (some (s.historyOf fileKey nodeId)) (s.nextRecord a)
      else s.historyOf fileKey nodeId := by
  have hlookup : ∀ (t : ProofState) (file node : String), t.historyOf file node =
      (((t.history.get? file).getD Table.empty).get? node).getD {} := by
    intro t file node
    rw [historyOf, Ledger.nodeHistory?_eq]
  have hhistory : (s.noted a).history = s.historyWith a := rfl
  by_cases hfile : a.input.fileKey = fileKey
  · subst hfile
    rw [hlookup, hhistory, historyWith, Table.get?_insert_self, Option.getD_some]
    by_cases hnode : a.input.nodeId = nodeId
    · subst hnode
      have hon : a.isOn a.input.fileKey a.input.nodeId = true := by simp [Submission.isOn]
      rw [Table.get?_insert_self, hon]
      rfl
    · have hon : a.isOn a.input.fileKey nodeId = false := by simp [Submission.isOn, hnode]
      rw [Table.get?_insert_ne _ hnode, hon, ← hlookup]
      rfl
  · have hon : a.isOn fileKey nodeId = false := by simp [Submission.isOn, hfile]
    rw [hlookup, hhistory, historyWith, Table.get?_insert_ne _ hfile, hon, ← hlookup]
    rfl

end ProofState

namespace Ledger

/-- An empty history and none are continued alike. -/
theorem appended_getD (h : Option NodeHistory) (r : AttemptRecord) :
    appended h r = appended (some (h.getD {})) r := by
  cases h <;> rfl

theorem totalAttempts_getD (h : Option NodeHistory) :
    attemptsSoFar h = (h.getD {}).totalAttempts := by
  cases h <;> rfl

/-- Words add up as numbers where there is room for the sum. -/
theorem toNat_add_of_lt {m n : UInt64} (h : m.toNat + n.toNat < UInt64.size) :
    (m + n).toNat = m.toNat + n.toNat := by
  rw [UInt64.toNat_add]
  exact Nat.mod_eq_of_lt h

/-- A counter that has room for one more counts one more. -/
theorem toNat_add_one {n : UInt64} (h : n.toNat + 1 < UInt64.size) :
    (n + 1).toNat = n.toNat + 1 := toNat_add_of_lt h

/-- Recording an attempt notes it, if it is valid. -/
theorem recorded_eq_noted {s : ProofState} {a : AttemptInput} {tacticKey : String} (now : Instant)
    (hkey : a.resolvedKey? = some tacticKey) :
    recorded s a now = s.noted ⟨a, tacticKey, now, signatureOf s a⟩ := by
  have hrecord : nextRecord (s.nodeHistory? a.fileKey a.nodeId) a tacticKey now =
      s.nextRecord ⟨a, tacticKey, now, signatureOf s a⟩ := by
    rw [ProofState.nextRecord, ProofState.historyOf, ← totalAttempts_getD]
    rfl
  rw [recorded, hkey]
  dsimp only
  rw [appended_getD, hrecord]
  rfl

end Ledger

-- ── Attempts of operations ────────────────────────────────────────────────────

namespace Operation

/-- The attempt that an operation records, if it is the recording of a valid input. -/
def submission? (s : ProofState) : Operation → Option Submission
  | record a now => a.resolvedKey?.map fun tacticKey => ⟨a, tacticKey, now, Ledger.signatureOf s a⟩
  | _ => none

/-- The attempts that a run of operations records, in the order of the run. -/
def submissions (settings : RankingSettings) : Json → List Operation → List Submission
  | _, [] => []
  | tree, op :: rest =>
    (op.submission? (ProofState.ofJson tree)).toList ++
      submissions settings (op.run settings tree) rest

/-- An operation either records no attempt and leaves histories and patterns as they are, or
    records one and changes them by it. -/
theorem change_cases (settings : RankingSettings) (s : ProofState) (op : Operation) :
    (op.submission? s = none ∧ (op.change settings s).history = s.history ∧
        (op.change settings s).patterns = s.patterns) ∨
      ∃ a, op.submission? s = some a ∧ op.change settings s = s.noted a := by
  cases op with
  | record a now =>
    cases hkey : a.resolvedKey? with
    | none =>
      have hsame : (record a now).change settings s = s := by
        show Ledger.recorded s a now = s
        rw [Ledger.recorded, hkey]
      refine Or.inl ⟨?_, by rw [hsame], by rw [hsame]⟩
      rw [submission?, hkey]
      rfl
    | some tacticKey =>
      refine Or.inr ⟨⟨a, tacticKey, now, Ledger.signatureOf s a⟩, ?_, ?_⟩
      · rw [submission?, hkey]
        rfl
      · exact Ledger.recorded_eq_noted now hkey
  | suggest fileKey nodeId now =>
    refine Or.inl ⟨rfl, ?_⟩
    show (Recommendation.refreshed settings s fileKey nodeId now).history = _ ∧
      (Recommendation.refreshed settings s fileKey nodeId now).patterns = _
    rw [Recommendation.refreshed]
    split <;> exact ⟨rfl, rfl⟩
  | commit fileKey d =>
    refine Or.inl ⟨rfl, ?_⟩
    show (Derivation.committedTo s fileKey d).history = _ ∧
      (Derivation.committedTo s fileKey d).patterns = _
    rw [Derivation.committedTo]
    split <;> exact ⟨rfl, rfl⟩
  | touch fileKey now => exact Or.inl ⟨rfl, rfl, rfl⟩

theorem submissions_append (settings : RankingSettings) (tree : Json)
    (prior later : List Operation) :
    submissions settings tree (prior ++ later) =
      submissions settings tree prior ++
        submissions settings (runAll settings tree prior) later := by
  induction prior generalizing tree with
  | nil => rfl
  | cons op rest ih =>
    show (op.submission? _).toList ++
      submissions settings (op.run settings tree) (rest ++ later) = _
    rw [ih, ← List.append_assoc]
    rfl

theorem submissions_concat (settings : RankingSettings) (tree : Json) (ops : List Operation)
    (op : Operation) :
    submissions settings tree (ops ++ [op]) =
      submissions settings tree ops ++
        (op.submission? (ProofState.ofJson (runAll settings tree ops))).toList := by
  rw [submissions_append]
  show _ ++ ((op.submission? _).toList ++ []) = _
  rw [List.append_nil]

/-- What the empty state satisfies without an attempt, and every recorded attempt keeps, holds
    after every run over an empty tree. Only histories and patterns may matter for it. -/
theorem run_induction (settings : RankingSettings)
    {motive : ProofState → List Submission → Prop} {tree : Json}
    (hempty : IsEmptyTree tree) (hstart : motive {} [])
    (hcongr : ∀ s s' made, s'.history = s.history → s'.patterns = s.patterns →
      motive s made → motive s' made)
    (hnoted : ∀ s made a, motive s made → motive (s.noted a) (made ++ [a]))
    {ops : List Operation} (hreal : AllReal ops) :
    motive (ProofState.ofJson (runAll settings tree ops)) (submissions settings tree ops) := by
  induction ops using List.reverseRecOn with
  | nil =>
    rw [ofJson_runAll hempty hreal]
    exact hstart
  | append_singleton ops op ih =>
    have hprior := ih hreal.of_append
    rw [ofJson_runAll hempty hreal.of_append] at hprior
    rw [submissions_concat, ofJson_runAll hempty hreal, ofJson_runAll hempty hreal.of_append,
      changeAll_concat]
    rcases change_cases settings (changeAll settings {} ops) op with
      ⟨hnone, hhistory, hpatterns⟩ | ⟨a, hsome, hchange⟩
    · rw [hnone, Option.toList_none, List.append_nil]
      exact hcongr _ _ _ hhistory hpatterns hprior
    · rw [hsome, hchange]
      exact hnoted _ _ _ hprior

end Operation

end ProofLedger
