import Mathlib.Algebra.Order.BigOperators.Group.List
import Mathlib.Algebra.Order.Ring.Nat
import ProofLedger.Table

/-!
# Sums over tables

What a single key adds to a sum over all values, and how the sum changes with an insertion. No
value adds more than the whole sum, so a small sum only has small parts.
-/

namespace ProofLedger.Table

variable {α : Type}

/-- A sum over the values is what one key adds to it, and the sum over the other keys. -/
theorem sum_values (t : Table α) (f : α → Nat) (key : String) :
    (t.values.map f).sum = ((t.get? key).map f).getD 0 + ((t.erase key).values.map f).sum := by
  cases hget : t.get? key with
  | none =>
    rw [erase_eq_self hget]
    exact (Nat.zero_add _).symm
  | some value =>
    have hperm := entries_perm_of_get? hget
    exact ((hperm.map (·.2)).map f).sum_nat

/-- An amount summed over all values. -/
def sumBy (f : α → Nat) (t : Table α) : Nat := (t.values.map f).sum

/-- What an insertion adds to a sum, next to what it replaces. -/
theorem sumBy_insert (f : α → Nat) (t : Table α) (key : String) (value : α) :
    (t.insert key value).sumBy f + ((t.get? key).map f).getD 0 = t.sumBy f + f value := by
  have hnew := (t.insert key value).sum_values f key
  have hold := t.sum_values f key
  rw [get?_insert_self, erase_insert] at hnew
  rw [sumBy, sumBy, hnew, hold]
  show f value + _ + _ = _
  omega

/-- A sum that is below a bound stays the same when only larger amounts are counted otherwise. -/
theorem sumBy_congr_of_lt {f g : α → Nat} {n : Nat} (h : ∀ v, f v < n → g v = f v)
    {t : Table α} (hlt : t.sumBy f < n) : t.sumBy g = t.sumBy f := by
  refine congrArg List.sum (List.map_congr_left fun v hv => h v ?_)
  exact Nat.lt_of_le_of_lt (List.single_le_sum (by simp) _ (List.mem_map_of_mem hv)) hlt

end ProofLedger.Table
