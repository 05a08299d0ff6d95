import Mathlib.Order.Defs.LinearOrder
import ProofLedger.Proofs.Instant.Text

/-!
# The order of instants

Instants are ordered by their second and then by their fraction, so a leap second comes after
all of the second that it is counted to. This is a linear order, and a step forward leads to a
later instant, also out of a leap second.
-/

namespace ProofLedger.Instant

theorem lt_def {a b : Instant} :
    a < b ↔ a.second < b.second ∨ (a.second = b.second ∧ a.fraction < b.fraction) := Iff.rfl

theorem le_def {a b : Instant} :
    a ≤ b ↔ a.second < b.second ∨ (a.second = b.second ∧ a.fraction ≤ b.fraction) := Iff.rfl

instance : LinearOrder Instant where
  le_refl a := Or.inr ⟨rfl, Nat.le_refl _⟩
  le_trans a b c hab hbc := by
    rw [le_def] at hab hbc ⊢
    omega
  lt_iff_le_not_ge a b := by
    rw [lt_def, le_def, le_def]
    omega
  le_antisymm a b hab hba := by
    rw [le_def] at hab hba
    obtain ⟨second, fraction⟩ := a
    obtain ⟨second', fraction'⟩ := b
    rw [Instant.mk.injEq]
    dsimp only at hab hba
    omega
  le_total a b := by
    rw [le_def, le_def]
    omega
  toDecidableLE := inferInstance
  toDecidableLT := inferInstance
  toDecidableEq := inferInstance

theorem ofNanos_second (n : Int) : (ofNanos n).second = n / 1000000000 := rfl

theorem ofNanos_fraction (n : Int) : (ofNanos n).fraction = (n % 1000000000).toNat := rfl

/-- A step forward from a real instant leads to a later one. -/
theorem IsReal.lt_addNanos {t : Instant} (h : t.IsReal) {n : Int} (hn : 0 < n) :
    t < t.addNanos n := by
  have hfraction : t.fraction < 2 * nanosPerSecond := by
    have hshows := h.shows
    unfold Shows nanosPerSecond at hshows
    unfold nanosPerSecond
    omega
  unfold nanosPerSecond at hfraction
  unfold Instant.addNanos
  dsimp only
  split
  · next hleap =>
    have hlong : 1000000000 ≤ t.fraction := of_decide_eq_true hleap
    split
    · -- Within the leap second only the fraction grows.
      rw [lt_def]
      dsimp only
      omega
    · next hout =>
      rw [Bool.and_eq_true, decide_eq_true_iff, decide_eq_true_iff] at hout
      unfold nanosPerSecond at hout
      rw [if_pos (Int.le_of_lt hn), lt_def, ofNanos_second]
      unfold nanosPerSecond
      omega
  · next hplain =>
    have hshort : t.fraction < 1000000000 := Nat.not_le.mp (mt decide_eq_true hplain)
    rw [lt_def, ofNanos_second, ofNanos_fraction]
    unfold nanosPerSecond
    omega

/-- A step forward leads to a later instant, if it leads anywhere. -/
theorem IsReal.lt_addMillis? {t u : Instant} (h : t.IsReal) {ms : Int} (hms : 0 < ms)
    (hu : t.addMillis? ms = some u) : t < u := by
  obtain ⟨-, rfl⟩ := within?_eq_some_iff.mp hu
  exact h.lt_addNanos (by omega)

end ProofLedger.Instant
