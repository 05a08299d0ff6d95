import ProofLedger.Proofs.Ledger.AppendOnly

/-!
# One more attempt

What an attempt adds to a state, told by what is found in the state afterwards: its record stands
in the history of its obligation under an id that was free, its pattern counts it, and everything
else that was recorded is as it was (`Appends`). If all histories are numbered from one to their
total and no counter is full then this is so after every recording (`appends_noted`).
-/

namespace ProofLedger

theorem Table.keys_insert_perm {α : Type} {t : Table α} {key : String} (h : t.get? key = none)
    (value : α) : (t.insert key value).keys.Perm (key :: t.keys) := by
  have hperm := (entries_insert_perm t key value).map (·.1)
  rwa [erase_eq_self h] at hperm

-- ── Numbers ───────────────────────────────────────────────────────────────────

/-- The id of the next number is free in a history that is numbered. -/
theorem NodeHistory.Numbered.fresh {nodeId : String} {h : NodeHistory} (hn : h.Numbered nodeId) :
    h.attempts.get? (attemptId nodeId (h.totalAttempts + 1).toNat) = none := by
  cases hget : h.attempts.get? (attemptId nodeId (h.totalAttempts + 1).toNat) with
  | none => rfl
  | some r =>
    obtain ⟨k, hpos, hk, hid⟩ := hn.number hget
    exact absurd (attemptId_injective nodeId hid).symm (next_ne hpos hk)

/-- A history goes on to be numbered when its next attempt gets the next number, as long as there
    is one. -/
theorem NodeHistory.Numbered.appended {nodeId : String} {h : NodeHistory}
    (hn : h.Numbered nodeId) (hroom : h.totalAttempts.toNat + 1 < UInt64.size)
    {r : AttemptRecord} (hid : r.id = attemptId nodeId (h.totalAttempts + 1).toNat) :
    (Ledger.appended (some h) r).Numbered nodeId := by
  have hfree : h.attempts.get? r.id = none := hid ▸ hn.fresh
  have hinsert := Table.keys_insert_perm hfree r
  rw [Ledger.toNat_add_one hroom] at hid
  have hrange : (List.range' 1 (h.totalAttempts.toNat + 1)).map (attemptId nodeId) =
      (List.range' 1 h.totalAttempts.toNat).map (attemptId nodeId) ++ [r.id] := by
    rw [List.range'_1_concat, List.map_append, List.map_singleton, hid, Nat.add_comm 1]
  show (h.attempts.insert r.id r).keys.Perm
    ((List.range' 1 (h.totalAttempts + 1).toNat).map (attemptId nodeId))
  rw [Ledger.toNat_add_one hroom, hrange]
  exact hinsert.trans ((hn.cons r.id).trans (List.perm_append_singleton _ _).symm)

namespace ProofState

/-- Whether the attempts of every history are numbered from one to their total. -/
def AllNumbered (s : ProofState) : Prop :=
  ∀ fileKey nodeId, (s.historyOf fileKey nodeId).Numbered nodeId

/-- Only the histories of a state matter. -/
theorem AllNumbered.congr {s s' : ProofState} (h : s.AllNumbered)
    (hhistory : s'.history = s.history) : s'.AllNumbered := by
  intro fileKey nodeId
  rw [historyOf_congr hhistory]
  exact h fileKey nodeId

-- ── Counts ────────────────────────────────────────────────────────────────────

/-- How many attempts the pattern under a key counts; none if there is no pattern. -/
def samples (s : ProofState) (key : String) : Nat :=
  ((s.patterns.get? key).map (·.sampleSize.toNat)).getD 0

/-- How many successes the pattern under a key counts. -/
def successes (s : ProofState) (key : String) : Nat :=
  ((s.patterns.get? key).map (·.successCount.toNat)).getD 0

/-- Whether one more attempt can be counted: neither the history of its obligation nor the pattern
    of its class has as many as a word of 64 bits holds. -/
structure HasRoom (s : ProofState) (fileKey nodeId key : String) : Prop where
  total : (s.historyOf fileKey nodeId).totalAttempts.toNat + 1 < UInt64.size
  pattern : ∀ p ∈ s.patterns.get? key,
    p.successCount.toNat + p.failureCount.toNat + 1 < UInt64.size

end ProofState

/-- A pattern with room for one more attempt counts it. -/
theorem PatternEntry.toNat_counts_observe {p : PatternEntry}
    (hroom : p.successCount.toNat + p.failureCount.toNat + 1 < UInt64.size) (success : Bool)
    (now : Instant) :
    (p.observe success now).sampleSize.toNat = p.sampleSize.toNat + 1 ∧
      (p.observe success now).successCount.toNat =
        p.successCount.toNat + if success then 1 else 0 := by
  have hsamples : p.sampleSize.toNat = p.successCount.toNat + p.failureCount.toNat :=
    Ledger.toNat_add_of_lt (Nat.lt_of_succ_lt hroom)
  cases success with
  | true =>
    have hmore : (p.successCount + 1).toNat = p.successCount.toNat + 1 :=
      Ledger.toNat_add_one (by omega)
    refine ⟨?_, hmore⟩
    show (p.successCount + 1 + p.failureCount).toNat = p.sampleSize.toNat + 1
    rw [Ledger.toNat_add_of_lt (by omega), hmore, hsamples]
    omega
  | false =>
    have hmore : (p.failureCount + 1).toNat = p.failureCount.toNat + 1 :=
      Ledger.toNat_add_one (by omega)
    refine ⟨?_, rfl⟩
    show (p.successCount + (p.failureCount + 1)).toNat = p.sampleSize.toNat + 1
    rw [Ledger.toNat_add_of_lt (by omega), hmore, hsamples]
    omega

/-- The pattern that an attempt leaves counts it, and beside it what was counted before. -/
theorem Ledger.counts_observedPattern {s : ProofState} {r : AttemptRecord}
    (hroom : ∀ p ∈ s.patterns.get? (patternKey r.countedCategory r.tacticKey),
      p.successCount.toNat + p.failureCount.toNat + 1 < UInt64.size)
    (signature : Option String) (now : Instant) :
    (observedPattern s r signature now).sampleSize.toNat =
        s.samples (patternKey r.countedCategory r.tacticKey) + 1 ∧
      (observedPattern s r signature now).successCount.toNat =
        s.successes (patternKey r.countedCategory r.tacticKey) +
          if r.result.isSuccess then 1 else 0 := by
  -- whether a signature is left makes no difference to the counts
  have hsigned : ∀ (p : PatternEntry) (b : Bool),
      (if b then { p with goalSignature := signature } else p).sampleSize = p.sampleSize ∧
        (if b then { p with goalSignature := signature } else p).successCount =
          p.successCount := by
    intro p b
    cases b <;> exact ⟨rfl, rfl⟩
  rw [ProofState.samples, ProofState.successes, observedPattern, (hsigned _ _).1, (hsigned _ _).2]
  cases hprior : s.patterns.get? (patternKey r.countedCategory r.tacticKey) with
  | none =>
    have hempty : (0 : UInt64).toNat + (0 : UInt64).toNat + 1 < UInt64.size := by decide
    exact PatternEntry.toNat_counts_observe
      (p := .unused r.countedCategory r.tacticKey now) hempty _ now
  | some p => exact PatternEntry.toNat_counts_observe (hroom p hprior) _ now

-- ── What an attempt adds ──────────────────────────────────────────────────────

/-- Whether a state is another one with one more attempt. -/
structure Appends (before : ProofState) (r : AttemptRecord) (after : ProofState) : Prop where
  /-- the id of the attempt was free, -/
  fresh : (before.historyOf r.fileKey r.nodeId).attempts.get? r.id = none
  /-- its record stands there now, among those that were there, -/
  attempts : (after.historyOf r.fileKey r.nodeId).attempts =
    (before.historyOf r.fileKey r.nodeId).attempts.insert r.id r
  /-- and it is counted -/
  total : (after.historyOf r.fileKey r.nodeId).totalAttempts.toNat =
    (before.historyOf r.fileKey r.nodeId).totalAttempts.toNat + 1
  /-- the other histories are as they were -/
  others : ∀ fileKey nodeId, ¬(fileKey = r.fileKey ∧ nodeId = r.nodeId) →
    after.historyOf fileKey nodeId = before.historyOf fileKey nodeId
  numbered : after.AllNumbered
  /-- the pattern of its category and tactic counts one more sample, -/
  samples : after.samples (patternKey r.countedCategory r.tacticKey) =
    before.samples (patternKey r.countedCategory r.tacticKey) + 1
  /-- which is a success if the attempt is one -/
  successes : after.successes (patternKey r.countedCategory r.tacticKey) =
    before.successes (patternKey r.countedCategory r.tacticKey) +
      if r.result.isSuccess then 1 else 0
  /-- the other patterns are as they were -/
  otherPatterns : ∀ key, key ≠ patternKey r.countedCategory r.tacticKey →
    after.patterns.get? key = before.patterns.get? key

/-- Only histories and patterns matter of the state afterwards. -/
theorem Appends.congr {before after after' : ProofState} {r : AttemptRecord}
    (h : Appends before r after) (hhistory : after'.history = after.history)
    (hpatterns : after'.patterns = after.patterns) : Appends before r after' := by
  have hsame : ∀ fileKey nodeId, after'.historyOf fileKey nodeId =
      after.historyOf fileKey nodeId := ProofState.historyOf_congr hhistory
  constructor
  case fresh => exact h.fresh
  case attempts => rw [hsame]; exact h.attempts
  case total => rw [hsame]; exact h.total
  case others =>
    intro fileKey nodeId hother
    rw [hsame]
    exact h.others fileKey nodeId hother
  case numbered => exact h.numbered.congr hhistory
  case samples => rw [ProofState.samples, hpatterns]; exact h.samples
  case successes => rw [ProofState.successes, hpatterns]; exact h.successes
  case otherPatterns => rw [hpatterns]; exact h.otherPatterns

/-- An attempt that is noted under the next number adds its record, if it can be counted. -/
theorem appends_noted {s : ProofState} (h : s.AllNumbered) {a : Submission}
    (hroom : s.HasRoom a.input.fileKey a.input.nodeId
      (patternKey a.tacticClass.category a.tacticClass.tacticKey)) :
    Appends s (s.nextRecord a) (s.noted a) := by
  have hown : (s.noted a).historyOf a.input.fileKey a.input.nodeId =
      Ledger.appended (some (s.historyOf a.input.fileKey a.input.nodeId)) (s.nextRecord a) := by
    rw [ProofState.historyOf_noted, if_pos (by simp [Submission.isOn])]
  have hpattern : (s.noted a).patterns.get?
      (patternKey (s.nextRecord a).countedCategory (s.nextRecord a).tacticKey) =
        some (Ledger.observedPattern s (s.nextRecord a) a.signature a.time) :=
    Table.get?_insert_self _ _ _
  obtain ⟨hsamples, hsuccesses⟩ :=
    Ledger.counts_observedPattern (r := s.nextRecord a) hroom.pattern a.signature a.time
  constructor
  case fresh => exact (h a.input.fileKey a.input.nodeId).fresh
  case attempts => exact congrArg NodeHistory.attempts hown
  case total =>
    exact (congrArg (·.totalAttempts.toNat) hown).trans (Ledger.toNat_add_one hroom.total)
  case others =>
    intro fileKey nodeId hother
    rw [ProofState.historyOf_noted, if_neg]
    intro hon
    rw [Submission.isOn, Bool.and_eq_true, beq_iff_eq, beq_iff_eq] at hon
    exact hother ⟨hon.1.symm, hon.2.symm⟩
  case numbered =>
    intro fileKey nodeId
    rw [ProofState.historyOf_noted]
    split
    · next hon =>
      rw [Submission.isOn, Bool.and_eq_true, beq_iff_eq, beq_iff_eq] at hon
      obtain ⟨rfl, rfl⟩ := hon
      exact (h _ _).appended hroom.total rfl
    · exact h fileKey nodeId
  case samples =>
    rw [← hsamples, ProofState.samples, hpattern]
    rfl
  case successes =>
    rw [← hsuccesses, ProofState.successes, hpattern]
    rfl
  case otherPatterns => exact fun key hkey => Table.get?_insert_ne _ (Ne.symm hkey) _

end ProofLedger
