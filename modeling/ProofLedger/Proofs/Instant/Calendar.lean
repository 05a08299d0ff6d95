import Mathlib.Tactic.Common
import ProofLedger.Instant

/-!
# The calendar

Every day has exactly one date: `dateOf` finds a real date, and `dayNumber` of that date is the
day again. A year is found from the mean length of a year and is then off by one at most.
-/

namespace ProofLedger.Instant

-- ── Years ─────────────────────────────────────────────────────────────────────

/-- The number of days of a year. -/
def yearLength (year : Int) : Nat := if isLeapYear year then 366 else 365

theorem daysBeforeYear_succ (year : Int) :
    daysBeforeYear (year + 1) = daysBeforeYear year + yearLength year := by
  unfold daysBeforeYear yearLength isLeapYear
  by_cases h4 : year % 4 = 0 <;> by_cases h100 : year % 100 = 0 <;>
    by_cases h400 : year % 400 = 0 <;> simp [h4, h100, h400] <;> omega

/-- Years begin one after the other. -/
theorem daysBeforeYear_mono {a b : Int} (h : a ≤ b) : daysBeforeYear a ≤ daysBeforeYear b := by
  simp only [daysBeforeYear]
  omega

/-- The year of a day has begun by then, and the next one has not. -/
theorem yearOf_spec (day : Int) :
    daysBeforeYear (yearOf day) ≤ day ∧ day < daysBeforeYear (yearOf day + 1) := by
  unfold yearOf
  have hlow : daysBeforeYear (day * 400 / 146097 + 1 - 1) ≤ day := by
    simp only [daysBeforeYear]; omega
  have hhigh : day < daysBeforeYear (day * 400 / 146097 + 1 + 1 + 1) := by
    simp only [daysBeforeYear]; omega
  generalize day * 400 / 146097 + 1 = guess at hlow hhigh
  dsimp only
  split
  · next h => exact ⟨h, hhigh⟩
  · next h1 =>
    split
    · next h => exact ⟨h, Int.not_le.mp h1⟩
    · next h2 =>
      refine ⟨hlow, ?_⟩
      rw [Int.sub_add_cancel]
      exact Int.not_le.mp h2

-- ── Months ────────────────────────────────────────────────────────────────────

theorem daysBeforeMonth_succ (year : Int) {month : Nat} (h : 1 ≤ month) :
    daysBeforeMonth year (month + 1) = daysBeforeMonth year month + monthLength year month := by
  obtain ⟨m, rfl⟩ := Nat.exists_eq_succ_of_ne_zero (Nat.ne_of_gt h)
  rfl

theorem monthLength_le (year : Int) (month : Nat) : monthLength year month ≤ 31 := by
  unfold monthLength
  split
  · split <;> omega
  all_goals omega

theorem daysBeforeMonth_end (year : Int) : daysBeforeMonth year 13 = yearLength year := by
  simp only [daysBeforeMonth, monthLength, yearLength]
  split <;> rfl

/-- What `monthDay` finds among the months that are left, if the days offered do not exceed
    them. -/
theorem monthDay_spec (year : Int) :
    ∀ (left month offset : Nat), 1 ≤ month →
      daysBeforeMonth year month + offset < daysBeforeMonth year (month + left + 1) →
      ∃ m d, monthDay year left month offset = (m, d) ∧ month ≤ m ∧ m ≤ month + left ∧
        1 ≤ d ∧ d ≤ monthLength year m ∧
        daysBeforeMonth year m + (d - 1) = daysBeforeMonth year month + offset := by
  intro left
  induction left with
  | zero =>
    intro month offset hmonth hoffset
    rw [Nat.add_zero, daysBeforeMonth_succ year hmonth] at hoffset
    exact ⟨month, offset + 1, rfl, Nat.le_refl _, Nat.le_refl _, by omega, by omega, by omega⟩
  | succ left ih =>
    intro month offset hmonth hoffset
    by_cases h : offset < monthLength year month
    · exact ⟨month, offset + 1, by rw [monthDay, if_pos h], by omega, by omega, by omega,
        by omega, by omega⟩
    · have hnext := daysBeforeMonth_succ year hmonth
      have hend : month + 1 + left + 1 = month + (left + 1) + 1 := by omega
      obtain ⟨m, d, hmd, hlow, hhigh, hd, hd', hsum⟩ :=
        ih (month + 1) (offset - monthLength year month) (by omega) (by rw [hend]; omega)
      exact ⟨m, d, by rw [monthDay, if_neg h, hmd], by omega, by omega, hd, hd', by omega⟩

-- ── Dates ─────────────────────────────────────────────────────────────────────

/-- The date of a day is a real one, and its number is that day. -/
theorem dateOf_spec (day : Int) :
    ∃ m d, dateOf day = (yearOf day, m, d) ∧ 1 ≤ m ∧ m ≤ 12 ∧ 1 ≤ d ∧
      d ≤ monthLength (yearOf day) m ∧ dayNumber (yearOf day) m d = day := by
  obtain ⟨hlow, hhigh⟩ := yearOf_spec day
  rw [daysBeforeYear_succ, ← daysBeforeMonth_end] at hhigh
  obtain ⟨m, d, hmd, hm, hm', hd, hd', hsum⟩ :=
    monthDay_spec (yearOf day) 11 1 (day - daysBeforeYear (yearOf day)).toNat (by omega)
      (by show 0 + _ < daysBeforeMonth (yearOf day) 13; omega)
  refine ⟨m, d, by simp only [dateOf, hmd], hm, by omega, hd, hd', ?_⟩
  have hone : daysBeforeMonth (yearOf day) 1 = 0 := rfl
  unfold dayNumber
  omega

end ProofLedger.Instant
