import ProofLedger.Proofs.Ledger.History
import ProofLedger.Proofs.Ranking.Statistics
import ProofLedger.Proofs.Sums

/-!
# Patterns agree with histories

Patterns and histories are kept apart from each other: a pattern rolls on with each attempt of its
class, while the statistics of a history are counted from the records it stores. Both are compared
with the attempts of the run. A sum over all histories of stored records of a kind is the number
of attempts of that kind, because each attempt is stored once (`Recounts`); a pattern counts the
attempts of its class (`Tabulates`). So the two cannot drift apart.
-/

namespace ProofLedger

-- ── Keys of patterns ──────────────────────────────────────────────────────────

/-- Two categories of one name are one category. -/
theorem Category.name_injective {c d : Category} (h : c.name = d.name) : c = d := by
  have hjson : c.toJson = d.toJson := congrArg Json.string h
  have hread := c.ofJson?_toJson
  rw [hjson, d.ofJson?_toJson] at hread
  exact (Option.some.inj hread).symm

/-- A name ends before the colon that the key of a pattern puts after it. -/
theorem Category.colon_notMem_name (c : Category) : ':' ∉ c.name.toList := by
  cases c <;> decide +kernel

/-- The key of the pattern of a class. -/
def TacticClass.key (c : TacticClass) : String := patternKey c.category c.tacticKey

/-- The key of a class is its category, a mark and its tactic. -/
theorem TacticClass.toList_key (c : TacticClass) :
    c.key.toList = c.category.name.toList ++ ':' :: c.tacticKey.toList := by
  simp only [key, patternKey, String.toList_append, List.append_assoc]
  rfl

/-- A class can be read off the key of its pattern, although a tactic key may have colons. -/
theorem TacticClass.key_injective {c d : TacticClass} (h : c.key = d.key) : c = d := by
  have htake : ∀ b : TacticClass,
      b.key.toList.takeWhile (fun x => decide (x ≠ ':')) = b.category.name.toList := by
    intro b
    rw [toList_key, List.takeWhile_append_of_pos, List.takeWhile_cons_of_neg (by decide),
      List.append_nil]
    intro x hx
    refine decide_eq_true ?_
    rintro rfl
    exact b.category.colon_notMem_name hx
  have hcategory : c.category = d.category := by
    refine Category.name_injective (String.toList_injective ?_)
    rw [← htake c, ← htake d, h]
  have hlists := congrArg String.toList h
  rw [toList_key, toList_key, hcategory] at hlists
  have htactic := (List.cons.inj (List.append_cancel_left hlists)).2
  exact ext hcategory (String.toList_injective htactic)

-- ── Sums over all histories ───────────────────────────────────────────────────

/-- An amount summed over the histories of all nodes of all files. -/
def ProofState.sumHistories (f : NodeHistory → Nat) (s : ProofState) : Nat :=
  s.history.sumBy (Table.sumBy f)

/-- An attempt changes a sum by no more than what it changes for its own obligation. -/
theorem ProofState.sumHistories_noted {f : NodeHistory → Nat} (hf : f {} = 0) (s : ProofState)
    (a : Submission) :
    (s.noted a).sumHistories f + f (s.historyOf a.input.fileKey a.input.nodeId) =
      s.sumHistories f +
        f (Ledger.appended (some (s.historyOf a.input.fileKey a.input.nodeId))
          (s.nextRecord a)) := by
  show (s.historyWith a).sumBy (Table.sumBy f) + _ = s.history.sumBy (Table.sumBy f) + _
  rw [historyWith]
  generalize Ledger.appended _ _ = next
  have houter := s.history.sumBy_insert (Table.sumBy f) a.input.fileKey
    (((s.history.get? a.input.fileKey).getD Table.empty).insert a.input.nodeId next)
  have hinner := ((s.history.get? a.input.fileKey).getD Table.empty).sumBy_insert f
    a.input.nodeId next
  have hfile : ((s.history.get? a.input.fileKey).map (Table.sumBy f)).getD 0 =
      ((s.history.get? a.input.fileKey).getD Table.empty).sumBy f := by
    cases s.history.get? a.input.fileKey <;> rfl
  have hnode : ((((s.history.get? a.input.fileKey).getD Table.empty).get?
      a.input.nodeId).map f).getD 0 = f (s.historyOf a.input.fileKey a.input.nodeId) := by
    rw [historyOf, Ledger.nodeHistory?_eq]
    cases ((s.history.get? a.input.fileKey).getD Table.empty).get? a.input.nodeId with
    | none => exact hf.symm
    | some h => rfl
  rw [hfile] at houter
  rw [hnode] at hinner
  omega

namespace Ledger

variable {s : ProofState} {made : List Submission}

/-- The stored records of all histories are those of the attempts, each once: of every kind that
    does not depend on numbers there are as many. -/
def Recounts (s : ProofState) (made : List Submission) : Prop :=
  ∀ (q : AttemptRecord → Bool) (p : Submission → Bool), (∀ a number, q (a.record number) = p a) →
    s.sumHistories (fun h => h.attempts.values.countP q) = made.countP p

/-- One more attempt is counted once more, if it is of the kind that is counted. -/
theorem countP_appended (hs : AllChronicled s made) (a : Submission)
    (hroom : made.length + 1 < UInt64.size) (q : AttemptRecord → Bool) :
    (appended (some (s.historyOf a.input.fileKey a.input.nodeId))
        (s.nextRecord a)).attempts.values.countP q =
      (s.historyOf a.input.fileKey a.input.nodeId).attempts.values.countP q +
        if q (s.nextRecord a) then 1 else 0 := by
  have hlength := length_attemptsOn_le a.input.fileKey a.input.nodeId made
  have hchronicles := hs a.input.fileKey a.input.nodeId (by omega)
  have hfresh : (s.historyOf a.input.fileKey a.input.nodeId).attempts.get? (s.nextRecord a).id =
      none := by
    have hid : (s.nextRecord a).id = attemptId a.input.nodeId
        ((s.historyOf a.input.fileKey a.input.nodeId).totalAttempts + 1).toNat := rfl
    rw [hid, toNat_add_one (by rw [hchronicles.total]; omega), hchronicles.total]
    exact hchronicles.fresh
  have hperm := Table.values_insert_perm hfresh (s.nextRecord a)
  show ((s.historyOf a.input.fileKey a.input.nodeId).attempts.insert (s.nextRecord a).id
    (s.nextRecord a)).values.countP q = _
  rw [hperm.countP_eq, List.countP_cons]

/-- A state that counts all submissions also counts the one it notes. -/
theorem Recounts.noted (h : Recounts s made) (hs : AllChronicled s made) (a : Submission)
    (hroom : made.length + 1 < UInt64.size) : Recounts (s.noted a) (made ++ [a]) := by
  intro q p hqp
  have hstep := s.sumHistories_noted (f := fun h => h.attempts.values.countP q) rfl a
  have hprior := h q p hqp
  rw [countP_appended hs a hroom, show q (s.nextRecord a) = p a from hqp a _] at hstep
  rw [List.countP_append, List.countP_singleton]
  omega

/-- A sum of counts of 64 bits is that of the counted records, where the sum fits into a word. -/
theorem Recounts.sum_counts (h : Recounts s made) (hroom : made.length < UInt64.size)
    {q : AttemptRecord → Bool} {p : Submission → Bool} (hqp : ∀ a number, q (a.record number) = p a)
    {count : NodeHistory → UInt64}
    (hcount : ∀ h, count h = UInt64.ofNat (h.attempts.values.countP q)) :
    s.sumHistories (fun h => (count h).toNat) = made.countP p := by
  have hwhole := h q p hqp
  have hlt : s.sumHistories (fun h => h.attempts.values.countP q) < UInt64.size :=
    hwhole ▸ Nat.lt_of_le_of_lt List.countP_le_length hroom
  rw [← hwhole]
  refine Table.sumBy_congr_of_lt (fun t ht => ?_) hlt
  refine Table.sumBy_congr_of_lt (fun h hh => ?_) ht
  rw [hcount, UInt64.toNat_ofNat_of_lt' hh]

/-- The statistics of a class, summed over all histories, count the attempts of the class. -/
theorem Recounts.attempts (h : Recounts s made) (hroom : made.length < UInt64.size)
    (c : TacticClass) :
    s.sumHistories (fun h => (LocalStats.statsOf c h).attempts.toNat) =
      made.countP fun a => a.tacticClass == c :=
  h.sum_counts hroom (fun _ _ => rfl) (LocalStats.attempts_statsOf c)

/-- The successes of a class over all histories are those among the submissions. -/
theorem Recounts.successes (h : Recounts s made) (hroom : made.length < UInt64.size)
    (c : TacticClass) :
    s.sumHistories (fun h => (LocalStats.statsOf c h).successes.toNat) =
      made.countP fun a => a.tacticClass == c && a.succeeded :=
  h.sum_counts hroom (fun _ _ => rfl) (LocalStats.successes_statsOf c)

-- ── Patterns ──────────────────────────────────────────────────────────────────

/-- The attempts of a class, among all attempts. -/
def ofClass (c : TacticClass) (made : List Submission) : List Submission :=
  made.filter fun a => a.tacticClass == c

/-- The signature of the goal that was closed last, of those that were known. -/
def lastSignature (made : List Submission) : Option String :=
  ((made.filter fun a => a.succeeded).filterMap fun a => a.signature).getLast?

/-- A success with a signature is the last one with a signature. -/
theorem lastSignature_concat (made : List Submission) (a : Submission) :
    lastSignature (made ++ [a]) =
      if a.succeeded && a.signature.isSome then a.signature else lastSignature made := by
  rw [lastSignature, filter_concat]
  cases hsuccess : a.succeeded with
  | false => rfl
  | true =>
    rw [if_pos rfl, List.filterMap_append]
    cases hsignature : a.signature with
    | none =>
      rw [List.filterMap_cons_none hsignature, List.filterMap_nil, List.append_nil]
      rfl
    | some signature =>
      rw [List.filterMap_cons_some hsignature, List.filterMap_nil, List.getLast?_concat]
      rfl

/-- Whether a pattern counts the attempts of a class, as far as words of 64 bits go. -/
structure Tabulates (c : TacticClass) (made : List Submission) (p : PatternEntry) : Prop where
  category : p.category = c.category
  tacticKey : p.tacticKey = c.tacticKey
  successes : p.successCount = UInt64.ofNat (made.countP fun a => a.succeeded)
  samples : p.sampleSize = UInt64.ofNat made.length
  score : p.score = successRate p.successCount p.sampleSize
  updated : ∀ t, lastTime made = some t → p.lastUpdated = t
  signature : p.goalSignature = lastSignature made

/-- A pattern with one more attempt. -/
def tabulated (p : PatternEntry) (a : Submission) : PatternEntry :=
  { p.observe a.succeeded a.time with
    goalSignature := if a.succeeded && a.signature.isSome then a.signature else p.goalSignature }

/-- A pattern without attempts stands for no submissions. -/
theorem tabulates_unused (c : TacticClass) (now : Instant) :
    Tabulates c [] (PatternEntry.unused c.category c.tacticKey now) where
  category := rfl
  tacticKey := rfl
  successes := rfl
  samples := rfl
  score := rfl
  updated t ht := by cases ht
  signature := rfl

/-- A pattern that has observed a submission stands for it too. -/
theorem Tabulates.concat {c : TacticClass} {p : PatternEntry} (h : Tabulates c made p)
    (a : Submission) : Tabulates c (made ++ [a]) (tabulated p a) := by
  have hsuccesses : (tabulated p a).successCount =
      if a.succeeded then p.successCount + 1 else p.successCount := rfl
  have hfailures : (tabulated p a).failureCount =
      if a.succeeded then p.failureCount else p.failureCount + 1 := rfl
  refine ⟨h.category, h.tacticKey, ?_, ?_, rfl, ?_, ?_⟩
  · rw [hsuccesses, List.countP_append, List.countP_singleton, UInt64.ofNat_add, ← h.successes]
    split
    · rfl
    · exact (UInt64.add_zero _).symm
  · have hsamples : p.successCount + p.failureCount = UInt64.ofNat made.length := h.samples
    rw [PatternEntry.sampleSize, hsuccesses, hfailures, List.length_append,
      List.length_singleton, UInt64.ofNat_add, ← hsamples]
    split
    · rw [UInt64.add_assoc, UInt64.add_comm 1, UInt64.add_assoc]
      rfl
    · exact (UInt64.add_assoc _ _ _).symm
  · intro t ht
    rw [lastTime_concat] at ht
    exact Option.some.inj ht
  · rw [lastSignature_concat, ← h.signature]
    rfl

/-- The pattern of a class, if there is one. -/
def patternOf? (c : TacticClass) (s : ProofState) : Option PatternEntry := s.patterns.get? c.key

/-- The pattern that an attempt leaves is that of its class with one more attempt. -/
theorem observedPattern_nextRecord (s : ProofState) (a : Submission) :
    observedPattern s (s.nextRecord a) a.signature a.time =
      tabulated ((patternOf? a.tacticClass s).getD
        (PatternEntry.unused a.tacticClass.category a.tacticClass.tacticKey a.time)) a := by
  show (if a.succeeded && a.signature.isSome then _ else _) = _
  rw [tabulated]
  split <;> rfl

/-- Noting a submission changes the pattern of its class, and no other. -/
theorem patternOf?_noted (c : TacticClass) (s : ProofState) (a : Submission) :
    patternOf? c (s.noted a) =
      if a.tacticClass = c then
        some (tabulated ((patternOf? c s).getD
          (PatternEntry.unused c.category c.tacticKey a.time)) a)
      else patternOf? c s := by
  have hpatterns : (s.noted a).patterns = s.patterns.insert a.tacticClass.key
      (observedPattern s (s.nextRecord a) a.signature a.time) := rfl
  rw [patternOf?, hpatterns]
  by_cases hclass : a.tacticClass = c
  · rw [if_pos hclass, ← hclass, Table.get?_insert_self, observedPattern_nextRecord]
  · rw [if_neg hclass, Table.get?_insert_ne _ (mt TacticClass.key_injective hclass)]
    rfl

/-- Whether the patterns of a state count all attempts, each in the pattern of its class. -/
structure AllTabulated (s : ProofState) (made : List Submission) : Prop where
  present : ∀ c, (patternOf? c s).isSome = true ↔ ∃ a ∈ made, a.tacticClass = c
  tabulates : ∀ c p, patternOf? c s = some p → Tabulates c (ofClass c made) p
  keyed : ∀ key p, s.patterns.get? key = some p → ∃ c : TacticClass, key = c.key

theorem allTabulated_nil : AllTabulated {} [] where
  present c := by
    constructor
    · intro h
      cases h
    · rintro ⟨a, ha, -⟩
      cases ha
  tabulates c p hp := by cases hp
  keyed key p hp := by cases hp

/-- Only the patterns of a state matter. -/
theorem AllTabulated.congr {s' : ProofState} (h : AllTabulated s made)
    (hpatterns : s'.patterns = s.patterns) : AllTabulated s' made := by
  have hsame : ∀ c, patternOf? c s' = patternOf? c s := by
    intro c
    rw [patternOf?, hpatterns]
    rfl
  refine ⟨?_, ?_, ?_⟩
  · intro c
    rw [hsame]
    exact h.present c
  · intro c p hp
    rw [hsame] at hp
    exact h.tabulates c p hp
  · intro key p hp
    rw [hpatterns] at hp
    exact h.keyed key p hp

/-- A class of no submission has no submissions. -/
theorem ofClass_eq_nil {c : TacticClass} (h : ¬∃ a ∈ made, a.tacticClass = c) :
    ofClass c made = [] := by
  refine List.filter_eq_nil_iff.mpr ?_
  intro a ha hclass
  exact h ⟨a, ha, beq_iff_eq.mp hclass⟩

/-- The pattern that is rolled on counts what came before, also where there is none yet. -/
theorem AllTabulated.tabulates_known (h : AllTabulated s made) (c : TacticClass)
    (now : Instant) :
    Tabulates c (ofClass c made)
      ((patternOf? c s).getD (PatternEntry.unused c.category c.tacticKey now)) := by
  cases hprior : patternOf? c s with
  | some prior => exact h.tabulates c prior hprior
  | none =>
    have hnone : ofClass c made = [] := by
      refine ofClass_eq_nil ?_
      rw [← h.present, hprior]
      exact Bool.false_ne_true
    rw [hnone]
    exact tabulates_unused c now

/-- One more attempt is counted in the pattern of its class and no other. -/
theorem AllTabulated.noted (h : AllTabulated s made) (a : Submission) :
    AllTabulated (s.noted a) (made ++ [a]) := by
  refine ⟨?_, ?_, ?_⟩
  · intro c
    rw [patternOf?_noted]
    by_cases hclass : a.tacticClass = c
    · rw [if_pos hclass]
      exact ⟨fun _ => ⟨a, List.mem_append_right _ List.mem_cons_self, hclass⟩, fun _ => rfl⟩
    · rw [if_neg hclass, h.present]
      constructor
      · rintro ⟨b, hb, hbc⟩
        exact ⟨b, List.mem_append_left _ hb, hbc⟩
      · rintro ⟨b, hb, hbc⟩
        rcases List.mem_append.mp hb with hb | hb
        · exact ⟨b, hb, hbc⟩
        · rw [List.mem_singleton.mp hb] at hbc
          exact absurd hbc hclass
  · intro c p hp
    rw [patternOf?_noted] at hp
    rw [ofClass, filter_concat]
    by_cases hclass : a.tacticClass = c
    · rw [if_pos hclass] at hp
      rw [if_pos (beq_iff_eq.mpr hclass), ← Option.some.inj hp]
      exact (h.tabulates_known c a.time).concat a
    · rw [if_neg hclass] at hp
      rw [if_neg (mt beq_iff_eq.mp hclass)]
      exact h.tabulates c p hp
  · intro key p hp
    by_cases hkey : a.tacticClass.key = key
    · exact ⟨a.tacticClass, hkey.symm⟩
    · have hsame : (s.noted a).patterns.get? key = s.patterns.get? key :=
        Table.get?_insert_ne _ hkey _
      rw [hsame] at hp
      exact h.keyed key p hp

end Ledger

namespace Operation

open Ledger

variable {tree : Json}

/-- Histories and patterns count the attempts of a run. -/
theorem counted_run (settings : RankingSettings) (hempty : IsEmptyTree tree)
    {ops : List Operation} (hreal : AllReal ops) :
    ((submissions settings tree ops).length < UInt64.size →
      Recounts (ProofState.ofJson (runAll settings tree ops)) (submissions settings tree ops)) ∧
      AllTabulated (ProofState.ofJson (runAll settings tree ops))
        (submissions settings tree ops) := by
  have hall := run_induction settings
    (motive := fun s made => AllChronicled s made ∧
      (made.length < UInt64.size → Recounts s made) ∧ AllTabulated s made)
    hempty ?_ ?_ ?_ hreal
  · exact hall.2
  · exact ⟨fun _ nodeId _ => chronicles_nil nodeId, fun _ _ _ _ => rfl, allTabulated_nil⟩
  · rintro s s' made hhistory hpatterns ⟨hchronicled, hrecounts, htabulated⟩
    refine ⟨?_, ?_, ?_⟩
    · intro fileKey nodeId
      rw [ProofState.historyOf_congr hhistory]
      exact hchronicled fileKey nodeId
    · intro hroom q p hqp
      rw [ProofState.sumHistories, hhistory]
      exact hrecounts hroom q p hqp
    · exact htabulated.congr hpatterns
  · rintro s made a ⟨hchronicled, hrecounts, htabulated⟩
    refine ⟨hchronicled.noted a, ?_, htabulated.noted a⟩
    intro hroom
    rw [List.length_append, List.length_singleton] at hroom
    exact (hrecounts (Nat.lt_of_succ_lt hroom)).noted hchronicled a hroom

/-- After every run over an empty tree there is a pattern for each class that was tried and no
    other. It counts what the statistics of all histories count together, its score is the share
    of successes, and its time and signature are those of the last attempt of the class, and of
    the last success on a goal with a known signature. Counts last for `2^64 - 1` attempts. -/
theorem pattern_after (settings : RankingSettings) (tree : Json) (ops : List Operation)
    (hempty : IsEmptyTree tree) (hreal : AllReal ops)
    (hroom : (submissions settings tree ops).length < UInt64.size) (c : TacticClass) :
    let s := ProofState.ofJson (runAll settings tree ops)
    let made := submissions settings tree ops
    ((patternOf? c s).isSome = true ↔ ∃ a ∈ made, a.tacticClass = c) ∧
      ∀ p, patternOf? c s = some p →
        p.successCount.toNat =
            s.sumHistories (fun h => (LocalStats.statsOf c h).successes.toNat) ∧
          p.sampleSize.toNat =
            s.sumHistories (fun h => (LocalStats.statsOf c h).attempts.toNat) ∧
          p.score = successRate p.successCount p.sampleSize ∧
          some p.lastUpdated = lastTime (ofClass c made) ∧
          p.goalSignature = lastSignature (ofClass c made) := by
  intro s made
  obtain ⟨hcounted, htabulated⟩ := counted_run settings hempty hreal
  have hrecounts := hcounted hroom
  refine ⟨htabulated.present c, ?_⟩
  intro p hp
  have hcounts := htabulated.tabulates c p hp
  have hlength : (ofClass c made).length < UInt64.size :=
    Nat.lt_of_le_of_lt (List.length_filter_le _ made) hroom
  obtain ⟨a, ha, hclass⟩ := (htabulated.present c).mp (by rw [hp]; rfl)
  refine ⟨?_, ?_, hcounts.score, ?_, hcounts.signature⟩
  · rw [hrecounts.successes hroom, hcounts.successes,
      UInt64.toNat_ofNat_of_lt' (Nat.lt_of_le_of_lt List.countP_le_length hlength), ofClass,
      List.countP_filter]
    congr 1
    funext a
    exact Bool.and_comm _ _
  · rw [hrecounts.attempts hroom, hcounts.samples, UInt64.toNat_ofNat_of_lt' hlength, ofClass,
      ← List.countP_eq_length_filter]
  · cases hlast : lastTime (ofClass c made) with
    | some t => rw [hcounts.updated t hlast]
    | none =>
      have hmem : a ∈ ofClass c made := List.mem_filter.mpr ⟨ha, beq_iff_eq.mpr hclass⟩
      rw [lastTime, Option.map_eq_none_iff, List.getLast?_eq_none_iff] at hlast
      rw [hlast] at hmem
      cases hmem

/-- An attempt in another file, with a category. -/
def categorized (category : Category) (result : AttemptResult) (second : Int) : Operation :=
  .record
    { fileKey := "Test.lean", nodeId := "m", tactic := "simp [h]", result
      category := some category, goalText := some "x = x" }
    ⟨second, 0⟩

/-- Attempts with one tactic on nodes of two files: without a category, with the category that
    those without one are counted under, and with another one. -/
def scatteredRun : List Operation :=
  [attemptAt "simp" .error 30, categorized .other .success 20, categorized .timeout .error 40]

theorem allReal_scatteredRun : AllReal scatteredRun := by decide

/-- Two of the attempts are in one class, and the pattern of the class counts them. -/
theorem pattern_after_scatteredRun :
    let s := ProofState.ofJson (runAll {} .null scatteredRun)
    let made := submissions {} .null scatteredRun
    let c : TacticClass := ⟨.other, "simp"⟩
    IsEmptyTree .null ∧ AllReal scatteredRun ∧ made.length < UInt64.size ∧
      (ofClass c made).length = 2 ∧
      ∃ p, patternOf? c s = some p ∧
        p.successCount.toNat =
            s.sumHistories (fun h => (LocalStats.statsOf c h).successes.toNat) ∧
          p.sampleSize.toNat =
            s.sumHistories (fun h => (LocalStats.statsOf c h).attempts.toNat) ∧
          p.score = successRate p.successCount p.sampleSize ∧
          some p.lastUpdated = lastTime (ofClass c made) ∧
          p.goalSignature = lastSignature (ofClass c made) := by
  intro s made c
  have hroom : made.length < UInt64.size := by decide +kernel
  obtain ⟨hpresent, hcounts⟩ :=
    pattern_after {} .null scatteredRun (Or.inr rfl) allReal_scatteredRun hroom c
  obtain ⟨p, hp⟩ := Option.isSome_iff_exists.mp
    (hpresent.mpr (show ∃ a ∈ made, a.tacticClass = c by decide +kernel))
  exact ⟨Or.inr rfl, allReal_scatteredRun, hroom, by decide +kernel, p, hp, hcounts p hp⟩

end Operation

end ProofLedger
