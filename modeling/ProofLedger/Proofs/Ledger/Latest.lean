import Mathlib.Data.String.Basic
import Mathlib.Order.Basic
import ProofLedger.Proofs.Instant.Order
import ProofLedger.Proofs.Ledger.History

/-!
# The latest attempt

The latest attempt of a history is the one with the greatest time, and among several of one time
the one with the greatest id. Ids are compared as texts. Their numbers have leading zeros up to six
digits, so below a million the order of ids is that of the numbers (`attemptId_lt`), and the latest
attempt is the one that was recorded last unless one before it has a later time
(`Ledger.IsLatest.eq_last`).
-/

namespace ProofLedger

-- ── The order of ids ──────────────────────────────────────────────────────────

namespace Instant

theorem ofDigitChars_cons_eq (c : Char) (cs : List Char) : Nat.ofDigitChars 10 (c :: cs) 0 =
    10 ^ cs.length * (c.toNat - '0'.toNat) + Nat.ofDigitChars 10 cs 0 := by
  rw [Nat.ofDigitChars_cons, Nat.ofDigitChars_eq_ofDigitChars_zero, Nat.mul_zero, Nat.zero_add]

theorem digit_lt_ten {c : Char} (h : c.isDigit = true) : c.toNat - '0'.toNat < 10 := by
  have hnine : c.toNat ≤ '9'.toNat := by
    rw [Char.isDigit, Bool.and_eq_true, decide_eq_true_iff, decide_eq_true_iff] at h
    exact h.2
  have hbound : '9'.toNat - '0'.toNat = 9 := rfl
  omega

theorem ofDigitChars_lt {cs : List Char} (h : ∀ c ∈ cs, c.isDigit = true) :
    Nat.ofDigitChars 10 cs 0 < 10 ^ cs.length := by
  induction cs with
  | nil => exact Nat.one_pos
  | cons c cs ih =>
    obtain ⟨hc, hcs⟩ := List.forall_mem_cons.mp h
    have hrest := ih hcs
    have hdigit := Nat.mul_le_mul_left (10 ^ cs.length) (Nat.le_of_lt_succ (digit_lt_ten hc))
    rw [ofDigitChars_cons_eq, List.length_cons, Nat.pow_succ]
    omega

/-- Of two numbers with as many digits the smaller one comes first as a text. -/
theorem lt_of_ofDigitChars_lt {cs ds : List Char} (hlength : cs.length = ds.length)
    (hcs : ∀ c ∈ cs, c.isDigit = true) (hds : ∀ d ∈ ds, d.isDigit = true)
    (h : Nat.ofDigitChars 10 cs 0 < Nat.ofDigitChars 10 ds 0) : cs < ds := by
  induction cs generalizing ds with
  | nil =>
    obtain rfl := List.eq_nil_of_length_eq_zero hlength.symm
    exact absurd h (Nat.lt_irrefl _)
  | cons c cs ih =>
    cases ds with
    | nil => cases hlength
    | cons d ds =>
      obtain ⟨hc, hcs'⟩ := List.forall_mem_cons.mp hcs
      obtain ⟨hd, hds'⟩ := List.forall_mem_cons.mp hds
      have hrest : cs.length = ds.length := Nat.succ.inj hlength
      rw [ofDigitChars_cons_eq, ofDigitChars_cons_eq, hrest] at h
      rw [List.cons_lt_cons_iff]
      have hcdigit := Char.isDigit_iff_toNat.mp hc
      have hddigit := Char.isDigit_iff_toNat.mp hd
      rcases Nat.lt_trichotomy c.toNat d.toNat with hlt | heq | hgt
      · exact Or.inl (Char.lt_def.mpr (UInt32.lt_iff_toNat_lt.mpr hlt))
      · obtain rfl := Char.toNat_inj.mp heq
        exact Or.inr ⟨rfl, ih hrest hcs' hds' (Nat.add_lt_add_iff_left.mp h)⟩
      · -- a greater first digit outweighs all digits that follow
        have hbelow := ofDigitChars_lt hds'
        have hsteps := Nat.mul_le_mul_left (10 ^ ds.length)
          (show d.toNat - '0'.toNat + 1 ≤ c.toNat - '0'.toNat by omega)
        rw [Nat.mul_succ] at hsteps
        omega

/-- Numbers of a width are in the same order as their texts. -/
theorem padded_lt {width i j : Nat} (hwidth : 0 < width) (hij : i < j) (hj : j < 10 ^ width) :
    padded width i < padded width j := by
  have hlength : (padded width i).length = (padded width j).length := by
    rw [length_padded hwidth (hij.trans hj), length_padded hwidth hj]
  refine lt_of_ofDigitChars_lt hlength (fun _ => isDigit_of_mem_padded)
    (fun _ => isDigit_of_mem_padded) ?_
  rw [← digitsFold_eq, ← digitsFold_eq, digitsFold_padded, digitsFold_padded]
  exact hij

end Instant

/-- Below a million the ids of a node are in the order of their numbers. -/
theorem attemptId_lt (nodeId : String) {i j : Nat} (hij : i < j) (hj : j < 1000000) :
    attemptId nodeId i < attemptId nodeId j := by
  rw [String.lt_iff_toList_lt, toList_attemptId, toList_attemptId]
  have hnumbers : Instant.padded 6 i < Instant.padded 6 j :=
    Instant.padded_lt (by decide) hij hj
  exact List.Lex.append_left _ (List.cons_lt_cons_iff.mpr (Or.inr ⟨rfl, hnumbers⟩)) _

-- ── The latest of some attempts ───────────────────────────────────────────────

namespace NodeHistory

theorem notBefore_iff {a b : AttemptRecord} : notBefore a b = true ↔
    b.timestamp < a.timestamp ∨ (b.timestamp = a.timestamp ∧ b.id ≤ a.id) := by
  rw [notBefore, Bool.or_eq_true, Bool.and_eq_true, decide_eq_true_iff, beq_iff_eq,
    Bool.not_eq_true', decide_eq_false_iff_not, String.not_lt, eq_comm (a := a.timestamp)]

theorem notBefore_refl (a : AttemptRecord) : notBefore a a = true :=
  notBefore_iff.mpr (Or.inr ⟨rfl, String.le_refl a.id⟩)

theorem notBefore_trans {a b c : AttemptRecord} (hab : notBefore a b = true)
    (hbc : notBefore b c = true) : notBefore a c = true := by
  rw [notBefore_iff] at hab hbc ⊢
  rcases hab with hab | ⟨hab, hid⟩
  · rcases hbc with hbc | ⟨hbc, -⟩
    · exact Or.inl (hbc.trans hab)
    · exact Or.inl (hbc ▸ hab)
  · rcases hbc with hbc | ⟨hbc, hid'⟩
    · exact Or.inl (hab ▸ hbc)
    · exact Or.inr ⟨hbc.trans hab, String.le_trans hid' hid⟩

theorem notBefore_total {a b : AttemptRecord} (h : notBefore a b = false) :
    notBefore b a = true := by
  have hnot : ¬(b.timestamp < a.timestamp ∨ (b.timestamp = a.timestamp ∧ b.id ≤ a.id)) := by
    rw [← notBefore_iff, h]
    exact Bool.false_ne_true
  rw [notBefore_iff]
  rcases lt_trichotomy a.timestamp b.timestamp with hlt | heq | hgt
  · exact Or.inl hlt
  · refine Or.inr ⟨heq, (String.le_total a.id b.id).resolve_right fun hid => ?_⟩
    exact hnot (Or.inr ⟨heq.symm, hid⟩)
  · exact absurd (Or.inl hgt) hnot

/-- A history with attempts has a latest one, which none of them comes after. -/
theorem exists_latest? {h : NodeHistory} {r : AttemptRecord} (hr : r ∈ h.attempts.values) :
    ∃ best ∈ h.attempts.values, h.latest? = some best ∧
      ∀ a ∈ h.attempts.values, notBefore best a = true := by
  unfold latest?
  generalize h.attempts.values = records at hr
  induction records using List.reverseRecOn generalizing r with
  | nil => cases hr
  | append_singleton records last ih =>
    rw [List.foldl_append, List.foldl_cons, List.foldl_nil]
    by_cases hfirst : records = []
    · subst hfirst
      refine ⟨last, List.mem_singleton_self last, rfl, fun a ha => ?_⟩
      rw [List.mem_singleton.mp ha]
      exact notBefore_refl last
    · obtain ⟨earlier, hearlier⟩ := List.exists_mem_of_ne_nil records hfirst
      obtain ⟨best, hbest, hlatest, hall⟩ := ih hearlier
      rw [hlatest]
      dsimp only
      cases hlast : notBefore last best with
      | true =>
        refine ⟨last, List.mem_append_right _ List.mem_cons_self, if_pos rfl, fun a ha => ?_⟩
        rcases List.mem_append.mp ha with ha | ha
        · exact notBefore_trans hlast (hall a ha)
        · rw [List.mem_singleton.mp ha]
          exact notBefore_refl last
      | false =>
        refine ⟨best, List.mem_append_left _ hbest, if_neg Bool.false_ne_true, fun a ha => ?_⟩
        rcases List.mem_append.mp ha with ha | ha
        · exact hall a ha
        · rw [List.mem_singleton.mp ha]
          exact notBefore_total hlast

end NodeHistory

-- ── The latest of the attempts of a node ──────────────────────────────────────

namespace Ledger

variable {nodeId : String} {made : List Submission} {h : NodeHistory}

/-- Whether an attempt is the latest of some: none has a later time, and none of its time has a
    greater id. -/
def IsLatest (nodeId : String) (made : List Submission) (k : Nat) (a : Submission) : Prop :=
  made[k]? = some a ∧ ∀ j b, made[j]? = some b →
    b.time < a.time ∨ (b.time = a.time ∧ attemptId nodeId (j + 1) ≤ attemptId nodeId (k + 1))

/-- The latest record of a history is that of the latest attempt. -/
theorem Chronicles.exists_latest? (hc : Chronicles nodeId made h) (hmade : made ≠ []) :
    ∃ k a, IsLatest nodeId made k a ∧ h.latest? = some (a.record (k + 1)) ∧
      (a.record (k + 1)).id = attemptId nodeId (k + 1) := by
  obtain ⟨first, hfirst⟩ := List.exists_mem_of_ne_nil made hmade
  obtain ⟨j, hj, hget⟩ := List.mem_iff_getElem.mp hfirst
  have hstored := hc.stored j first (List.getElem?_eq_some_iff.mpr ⟨hj, hget⟩)
  obtain ⟨best, hbest, hlatest, hall⟩ :=
    NodeHistory.exists_latest? (Table.mem_values.mpr ⟨_, hstored⟩)
  obtain ⟨id, hid⟩ := Table.mem_values.mp hbest
  obtain ⟨k, a, ha, rfl, rfl⟩ := hc.attempt_of_get? hid
  have hown := hc.own _ _ hid
  refine ⟨k, a, ⟨ha, fun j b hb => ?_⟩, hlatest, hown⟩
  have hother := hc.stored j b hb
  have hbefore := NodeHistory.notBefore_iff.mp (hall _ (Table.mem_values.mpr ⟨_, hother⟩))
  rw [hc.own _ _ hother, hown] at hbefore
  exact hbefore

/-- The last attempt is the latest, if no other has a later time. Another one may have the same
    time below a million, where ids are in the order of their numbers. -/
theorem IsLatest.eq_last {a b : Submission} {k : Nat} (h : IsLatest nodeId (made ++ [a]) k b)
    (hclock : ∀ earlier ∈ made, earlier.time < a.time ∨
      (earlier.time = a.time ∧ made.length + 1 < 1000000)) :
    k = made.length ∧ b = a := by
  obtain ⟨hget, hall⟩ := h
  have hlast : (made ++ [a])[made.length]? = some a := List.getElem?_concat_length
  have hk : k < made.length + 1 := by
    obtain ⟨hk, -⟩ := List.getElem?_eq_some_iff.mp hget
    rwa [List.length_append, List.length_singleton] at hk
  have hnot : ¬ k < made.length := by
    intro hearlier
    rw [List.getElem?_append_left hearlier] at hget
    rcases hall made.length a hlast with hlater | ⟨hsame, hid⟩
    · rcases hclock b (List.mem_of_getElem? hget) with hlt | ⟨heq, -⟩
      · exact lt_asymm hlt hlater
      · exact absurd (heq ▸ hlater) (lt_irrefl _)
    · rcases hclock b (List.mem_of_getElem? hget) with hlt | ⟨-, hfew⟩
      · exact absurd (hsame ▸ hlt) (lt_irrefl _)
      · have hlt := attemptId_lt nodeId (Nat.succ_lt_succ hearlier) hfew
        exact String.not_lt.mpr hid hlt
  obtain rfl : k = made.length := by omega
  exact ⟨rfl, Option.some.inj (hget.symm.trans hlast)⟩

end Ledger

end ProofLedger
