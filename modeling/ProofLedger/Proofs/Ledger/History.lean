import ProofLedger.Proofs.Ledger.Submissions

/-!
# Histories chronicle attempts

The history of an obligation is a faithful account of the attempts on it. The record of an attempt
and the counters are written by separate patches, from what was read before; still, after every
run the totals, the ids, the streak and the three times are those of the attempts of the run
(`Chronicles`). One appended attempt keeps that (`Chronicles.append`), since the id that it is
stored under is new: ids differ if their numbers do.
-/

namespace ProofLedger

-- ── Ids ───────────────────────────────────────────────────────────────────────

/-- The id of an attempt is the node, a mark and the number in six digits or more. -/
theorem toList_attemptId (nodeId : String) (number : Nat) :
    (attemptId nodeId number).toList = nodeId.toList ++ '#' :: Instant.padded 6 number := by
  simp only [attemptId, String.toList_append, String.toList_ofList, List.append_assoc]
  rfl

/-- The number of an attempt can be read off its id. -/
theorem attemptId_injective (nodeId : String) {i j : Nat}
    (h : attemptId nodeId i = attemptId nodeId j) : i = j := by
  have hlists := congrArg String.toList h
  rw [toList_attemptId, toList_attemptId] at hlists
  have hdigits := (List.cons.inj (List.append_cancel_left hlists)).2
  have hvalues := congrArg Instant.digitsFold hdigits
  rwa [Instant.digitsFold_padded, Instant.digitsFold_padded] at hvalues

namespace Ledger

-- ── The account of a list of attempts ─────────────────────────────────────────

/-- The number of attempts since the last success. -/
def streakOf (made : List Submission) : Nat :=
  (made.reverse.takeWhile fun a => !a.succeeded).length

/-- The time of the last attempt. -/
def lastTime (made : List Submission) : Option Instant := made.getLast?.map (·.time)

/-- A success ends the streak of failures, a failure makes it longer by one. -/
theorem streakOf_concat (made : List Submission) (a : Submission) :
    streakOf (made ++ [a]) = if a.succeeded then 0 else streakOf made + 1 := by
  rw [streakOf, List.reverse_append, List.reverse_singleton, List.singleton_append]
  cases ha : a.succeeded with
  | true => simp [ha]
  | false => simp [ha, streakOf]

/-- The time of the last submission is that of the latest one. -/
theorem lastTime_concat (made : List Submission) (a : Submission) :
    lastTime (made ++ [a]) = some a.time := by
  rw [lastTime, List.getLast?_concat]
  rfl

/-- A new attempt is one of those with a property, if it has the property. -/
theorem filter_concat (p : Submission → Bool) (made : List Submission) (a : Submission) :
    (made ++ [a]).filter p = if p a then made.filter p ++ [a] else made.filter p := by
  rw [List.filter_append]
  cases hp : p a with
  | true =>
    rw [List.filter_cons_of_pos hp]
    rfl
  | false =>
    rw [List.filter_cons_of_neg (by rw [hp]; exact Bool.false_ne_true), List.filter_nil,
      List.append_nil]
    rfl

/-- The last of the attempts with a property is the new one, if it has the property. -/
theorem lastTime_filter_concat (p : Submission → Bool) (made : List Submission)
    (a : Submission) :
    lastTime ((made ++ [a]).filter p) =
      if p a then some a.time else lastTime (made.filter p) := by
  rw [filter_concat, apply_ite lastTime, lastTime_concat]

/-- A streak is counted up to the largest number of 32 bits. -/
theorem toNat_nextStreak {h : NodeHistory} {n : Nat}
    (hn : h.currentStreak.toNat = min n (2 ^ 32 - 1)) (success : Bool) :
    (nextStreak (some h) success).toNat = min (if success then 0 else n + 1) (2 ^ 32 - 1) := by
  cases success with
  | true => rfl
  | false =>
    show (if h.currentStreak = 0xFFFFFFFF then h.currentStreak
      else h.currentStreak + 1).toNat = min (n + 1) (2 ^ 32 - 1)
    have hmax : (0xFFFFFFFF : UInt32).toNat = 2 ^ 32 - 1 := rfl
    by_cases hfull : h.currentStreak = 0xFFFFFFFF
    · rw [if_pos hfull, hfull, hmax]
      rw [hfull, hmax] at hn
      omega
    · have hbelow : h.currentStreak.toNat ≠ 2 ^ 32 - 1 := by
        intro heq
        exact hfull (UInt32.toNat_inj.mp (heq.trans hmax.symm))
      rw [if_neg hfull, UInt32.toNat_add]
      show (h.currentStreak.toNat + 1) % 2 ^ 32 = _
      omega

/-- Whether a history is the account of the attempts that were made on a node, in this order. -/
structure Chronicles (nodeId : String) (made : List Submission) (h : NodeHistory) : Prop where
  /-- every attempt is counted -/
  total : h.totalAttempts.toNat = made.length
  /-- as many attempts are stored -/
  size : h.attempts.size = made.length
  /-- the ids are those of the numbers from one on -/
  ids : ∀ id, (h.attempts.get? id).isSome = true ↔
    ∃ k, 1 ≤ k ∧ k ≤ made.length ∧ id = attemptId nodeId k
  /-- under the id of a number is the record of the attempt that was made at that place -/
  stored : ∀ k a, made[k]? = some a →
    h.attempts.get? (attemptId nodeId (k + 1)) = some (a.record (k + 1))
  /-- every record is stored under its own id -/
  own : ∀ id r, h.attempts.get? id = some r → r.id = id
  streak : h.currentStreak.toNat = min (streakOf made) (2 ^ 32 - 1)
  lastAttempt : h.lastAttemptAt = lastTime made
  lastSuccess : h.lastSuccessAt = lastTime (made.filter fun a => a.succeeded)
  lastFailure : h.lastFailureAt = lastTime (made.filter fun a => !a.succeeded)

variable {nodeId : String} {made : List Submission} {h : NodeHistory}

/-- An empty history tells of no submissions. -/
theorem chronicles_nil (nodeId : String) : Chronicles nodeId [] {} where
  total := rfl
  size := rfl
  ids id := by
    constructor
    · intro hid
      cases hid
    · rintro ⟨k, hk, hk', -⟩
      exact absurd hk' (Nat.not_le.mpr hk)
  stored k a ha := by cases ha
  own id r hr := by cases hr
  streak := rfl
  lastAttempt := rfl
  lastSuccess := rfl
  lastFailure := rfl

/-- The next id is new. -/
theorem Chronicles.fresh (hc : Chronicles nodeId made h) :
    h.attempts.get? (attemptId nodeId (made.length + 1)) = none := by
  cases hget : h.attempts.get? (attemptId nodeId (made.length + 1)) with
  | none => rfl
  | some r =>
    obtain ⟨k, -, hk, hid⟩ := (hc.ids _).mp (by rw [hget]; rfl)
    have hsame := attemptId_injective nodeId hid
    omega

/-- Every stored record is that of an attempt. -/
theorem Chronicles.attempt_of_get? (hc : Chronicles nodeId made h) {id : String}
    {r : AttemptRecord} (hr : h.attempts.get? id = some r) :
    ∃ k a, made[k]? = some a ∧ id = attemptId nodeId (k + 1) ∧ r = a.record (k + 1) := by
  obtain ⟨number, hpos, hle, rfl⟩ := (hc.ids id).mp (by rw [hr]; rfl)
  obtain ⟨k, rfl⟩ := Nat.exists_eq_add_of_le' hpos
  obtain ⟨a, ha⟩ : ∃ a, made[k]? = some a := ⟨_, List.getElem?_eq_getElem hle⟩
  rw [hc.stored k a ha] at hr
  exact ⟨k, a, ha, rfl, (Option.some.inj hr).symm⟩

-- One more record under the next id: what that does to the table of attempts.
section Append

variable (hc : Chronicles nodeId made h) (a : Submission)

include hc

/-- A further attempt makes a history longer by one. -/
private theorem Chronicles.size_insert :
    (h.attempts.insert (attemptId nodeId (made.length + 1)) (a.record (made.length + 1))).size =
      made.length + 1 := by
  have hsize : ∀ t : Table AttemptRecord, t.size = t.values.length :=
    fun t => (List.length_map _).symm
  have hperm := Table.values_insert_perm hc.fresh (a.record (made.length + 1))
  rw [hsize, hperm.length_eq, List.length_cons, ← hsize, hc.size]

/-- The ids are those of the numbers up to the number of the further attempt. -/
private theorem Chronicles.ids_insert (id : String) :
    ((h.attempts.insert (attemptId nodeId (made.length + 1))
        (a.record (made.length + 1))).get? id).isSome = true ↔
      ∃ k, 1 ≤ k ∧ k ≤ made.length + 1 ∧ id = attemptId nodeId k := by
  by_cases hid : attemptId nodeId (made.length + 1) = id
  · rw [← hid, Table.get?_insert_self]
    exact ⟨fun _ => ⟨_, Nat.le_add_left 1 _, Nat.le_refl _, rfl⟩, fun _ => rfl⟩
  · rw [Table.get?_insert_ne _ hid, hc.ids]
    constructor
    · rintro ⟨k, hk, hk', hkid⟩
      exact ⟨k, hk, Nat.le_succ_of_le hk', hkid⟩
    · rintro ⟨k, hk, hk', hkid⟩
      have hne : k ≠ made.length + 1 := fun heq => hid (by rw [hkid, heq])
      exact ⟨k, hk, by omega, hkid⟩

/-- Each submission is stored under its number, the further one too. -/
private theorem Chronicles.stored_insert {k : Nat} {b : Submission}
    (hb : (made ++ [a])[k]? = some b) :
    (h.attempts.insert (attemptId nodeId (made.length + 1)) (a.record (made.length + 1))).get?
      (attemptId nodeId (k + 1)) = some (b.record (k + 1)) := by
  rcases Nat.lt_trichotomy k made.length with hk | hk | hk
  · have hne : attemptId nodeId (made.length + 1) ≠ attemptId nodeId (k + 1) := by
      intro heq
      have hsame := attemptId_injective _ heq
      omega
    rw [Table.get?_insert_ne _ hne]
    rw [List.getElem?_append_left hk] at hb
    exact hc.stored k b hb
  · subst hk
    rw [List.getElem?_concat_length] at hb
    cases hb
    exact Table.get?_insert_self _ _ _
  · rw [List.getElem?_eq_none (by rw [List.length_append, List.length_singleton]; omega)] at hb
    cases hb

/-- Every attempt is stored under its own id. -/
private theorem Chronicles.own_insert (hnode : a.input.nodeId = nodeId) {id : String}
    {r : AttemptRecord}
    (hr : (h.attempts.insert (attemptId nodeId (made.length + 1))
      (a.record (made.length + 1))).get? id = some r) : r.id = id := by
  by_cases hid : attemptId nodeId (made.length + 1) = id
  · rw [hid, Table.get?_insert_self] at hr
    rw [← Option.some.inj hr, ← hid, ← hnode]
    rfl
  · rw [Table.get?_insert_ne _ hid] at hr
    exact hc.own id r hr

end Append

/-- One more attempt continues the account, as long as the counter has room for it. -/
theorem Chronicles.append (hc : Chronicles nodeId made h) {a : Submission}
    (hnode : a.input.nodeId = nodeId) (hroom : made.length + 1 < UInt64.size) :
    Chronicles nodeId (made ++ [a])
      (appended (some h) (a.record (h.totalAttempts + 1).toNat)) := by
  have htotal : (h.totalAttempts + 1).toNat = made.length + 1 := by
    rw [toNat_add_one (hc.total.symm ▸ hroom), hc.total]
  have hlength : (made ++ [a]).length = made.length + 1 := by
    rw [List.length_append, List.length_singleton]
  have hattempts : (appended (some h) (a.record (h.totalAttempts + 1).toNat)).attempts =
      h.attempts.insert (attemptId nodeId (made.length + 1)) (a.record (made.length + 1)) := by
    rw [← htotal, ← hnode]
    rfl
  refine ⟨?_, ?_, ?_, ?_, ?_, ?_, ?_, ?_, ?_⟩
  · rw [hlength, ← htotal]
    rfl
  · rw [hattempts, hlength]
    exact hc.size_insert a
  · intro id
    rw [hattempts, hlength]
    exact hc.ids_insert a id
  · intro k b hb
    rw [hattempts]
    exact hc.stored_insert a hb
  · intro id r hr
    rw [hattempts] at hr
    exact hc.own_insert a hnode hr
  · rw [streakOf_concat]
    exact toNat_nextStreak hc.streak a.succeeded
  · exact (lastTime_concat made a).symm
  · rw [lastTime_filter_concat, ← hc.lastSuccess]
    rfl
  · rw [lastTime_filter_concat, ← hc.lastFailure]
    show (if a.succeeded then h.lastFailureAt else some a.time) = _
    cases a.succeeded <;> rfl

-- ── Runs ──────────────────────────────────────────────────────────────────────

/-- The attempts on a node of a file, among all attempts. -/
def attemptsOn (fileKey nodeId : String) (made : List Submission) : List Submission :=
  made.filter fun a => a.isOn fileKey nodeId

/-- The attempts on a node are those of before and those of later. -/
theorem attemptsOn_append (fileKey nodeId : String) (made later : List Submission) :
    attemptsOn fileKey nodeId (made ++ later) =
      attemptsOn fileKey nodeId made ++ attemptsOn fileKey nodeId later :=
  List.filter_append made later

/-- A submission is one more attempt on its own node, and none on the others. -/
theorem attemptsOn_concat (fileKey nodeId : String) (made : List Submission) (a : Submission) :
    attemptsOn fileKey nodeId (made ++ [a]) =
      if a.isOn fileKey nodeId then attemptsOn fileKey nodeId made ++ [a]
      else attemptsOn fileKey nodeId made :=
  filter_concat _ made a

/-- There are no more attempts on a node than submissions. -/
theorem length_attemptsOn_le (fileKey nodeId : String) (made : List Submission) :
    (attemptsOn fileKey nodeId made).length ≤ made.length :=
  List.length_filter_le _ made

/-- Whether every history of a state is the account of the attempts on its obligation, of which
    there must be fewer than a counter has numbers. -/
def AllChronicled (s : ProofState) (made : List Submission) : Prop :=
  ∀ fileKey nodeId, (attemptsOn fileKey nodeId made).length < UInt64.size →
    Chronicles nodeId (attemptsOn fileKey nodeId made) (s.historyOf fileKey nodeId)

/-- A state that tells of all submissions also tells of the one it notes. -/
theorem AllChronicled.noted {s : ProofState} (hs : AllChronicled s made) (a : Submission) :
    AllChronicled (s.noted a) (made ++ [a]) := by
  intro fileKey nodeId
  have hprior := hs fileKey nodeId
  rw [ProofState.historyOf_noted, attemptsOn_concat]
  cases hon : a.isOn fileKey nodeId with
  | false => exact hprior
  | true =>
    intro hroom
    rw [if_pos rfl, List.length_append, List.length_singleton] at hroom
    obtain ⟨hfile, hnode⟩ : a.input.fileKey = fileKey ∧ a.input.nodeId = nodeId := by
      simpa [Submission.isOn] using hon
    have hrecord : s.nextRecord a =
        a.record ((s.historyOf fileKey nodeId).totalAttempts + 1).toNat := by
      rw [ProofState.nextRecord, hfile, hnode]
    rw [hrecord]
    exact (hprior (Nat.lt_of_succ_lt hroom)).append hnode hroom

end Ledger

namespace Operation

open Ledger

variable {tree : Json}

/-- After any run from an empty tree the histories tell of all submissions. -/
theorem allChronicled_run (settings : RankingSettings) (hempty : IsEmptyTree tree)
    {ops : List Operation} (hreal : AllReal ops) :
    AllChronicled (ProofState.ofJson (runAll settings tree ops))
      (submissions settings tree ops) := by
  refine run_induction settings hempty ?_ ?_ ?_ hreal
  · intro fileKey nodeId _
    exact chronicles_nil nodeId
  · intro s s' made hhistory _ hs fileKey nodeId
    rw [ProofState.historyOf_congr hhistory]
    exact hs fileKey nodeId
  · intro s made a hs
    exact hs.noted a

/-- After every run over an empty tree, the history of every obligation is the account of the
    attempts that the run recorded on it; and a record that was stored at some time of the run is
    still stored as it was. Numbers last for `2^64 - 1` attempts on one obligation. -/
theorem history_after (settings : RankingSettings) (tree : Json) (ops : List Operation)
    (hempty : IsEmptyTree tree) (hreal : AllReal ops) (fileKey nodeId : String)
    (hroom : (attemptsOn fileKey nodeId (submissions settings tree ops)).length < UInt64.size) :
    Chronicles nodeId (attemptsOn fileKey nodeId (submissions settings tree ops))
        ((ProofState.ofJson (runAll settings tree ops)).historyOf fileKey nodeId) ∧
      ∀ prior later, ops = prior ++ later → ∀ id r,
        ((ProofState.ofJson (runAll settings tree prior)).historyOf fileKey nodeId).attempts.get?
            id = some r →
          ((ProofState.ofJson (runAll settings tree ops)).historyOf fileKey nodeId).attempts.get?
            id = some r := by
  have hchronicled := allChronicled_run settings hempty hreal fileKey nodeId hroom
  refine ⟨hchronicled, ?_⟩
  rintro prior later rfl id r hr
  rw [submissions_append, attemptsOn_append] at hroom hchronicled
  have hbefore := allChronicled_run settings hempty hreal.of_append fileKey nodeId
    (by rw [List.length_append] at hroom; omega)
  obtain ⟨k, a, ha, rfl, rfl⟩ := hbefore.attempt_of_get? hr
  obtain ⟨hk, -⟩ := List.getElem?_eq_some_iff.mp ha
  exact hchronicled.stored k a (by rw [List.getElem?_append_left hk]; exact ha)

/-- An attempt with a tactic on one node, at a second after the beginning of 1970. -/
def attemptAt (tactic : String) (result : AttemptResult) (second : Int) : Operation :=
  .record { fileKey := "Main.lean", nodeId := "n", tactic, result } ⟨second, 0⟩

/-- A failure, a success and a failure again, each at an earlier time than the one before, with an
    attempt without a tactic and a sync between them. -/
def backwardRun : List Operation :=
  [attemptAt "simp" .error 30, attemptAt "ring" .success 20, attemptAt " " .error 40,
    .touch "Main.lean" ⟨50, 0⟩, attemptAt "simp" .timeout 10]

/-- Three attempts are valid, and the history is the account of them. -/
theorem history_after_backwardRun :
    let made := attemptsOn "Main.lean" "n" (submissions {} .null backwardRun)
    let h := (ProofState.ofJson (runAll {} .null backwardRun)).historyOf "Main.lean" "n"
    IsEmptyTree .null ∧ AllReal backwardRun ∧ made.length = 3 ∧ Chronicles "n" made h ∧
      ∀ prior later, backwardRun = prior ++ later → ∀ id r,
        ((ProofState.ofJson (runAll {} .null prior)).historyOf "Main.lean" "n").attempts.get? id =
          some r → h.attempts.get? id = some r := by
  intro made h
  have hreal : AllReal backwardRun := by decide
  have hthree : made.length = 3 := by decide +kernel
  obtain ⟨hchronicles, hkept⟩ :=
    history_after {} .null backwardRun (Or.inr rfl) hreal "Main.lean" "n" (hthree ▸ by decide)
  exact ⟨Or.inr rfl, hreal, hthree, hchronicles, hkept⟩

end Operation

end ProofLedger
