/-!
# The exact value of a double

A finite double is a sign and a magnitude `m * 2 ^ q` with natural `m`. Everything that turns
doubles into decimal text computes on that magnitude with natural numbers.
-/

namespace ProofLedger.Decimal

/-- A magnitude `m * 2 ^ q`. The gap to the next smaller double is half as wide as the gap to
    the next larger one where `narrowBelow` says so. -/
structure Magnitude where
  m : Nat
  q : Int
  narrowBelow : Bool
  deriving DecidableEq, Repr

/-- What a double stands for. -/
inductive Reading where
  | nan
  | infinite (negative : Bool)
  | finite (negative : Bool) (magnitude : Magnitude)
  deriving DecidableEq, Repr

/-- Takes a double apart. -/
def Reading.of (x : Float) : Reading :=
  let bits : Nat := x.toBits.toNat
  let negative : Bool := bits / Nat.pow 2 63 == 1
  let e : Nat := bits / Nat.pow 2 52 % Nat.pow 2 11
  let f : Nat := bits % Nat.pow 2 52
  if e == 2047 then
    if f == 0 then .infinite negative else .nan
  else if e == 0 then .finite negative ⟨f, -1074, false⟩
  else .finite negative ⟨f + Nat.pow 2 52, (e : Int) - 1075, f == 0 && e > 1⟩

/-- Numerator and denominator of the magnitude. -/
def Magnitude.ratio (v : Magnitude) : Nat × Nat :=
  if 0 ≤ v.q then (v.m * Nat.pow 2 v.q.toNat, 1) else (v.m, Nat.pow 2 (-v.q).toNat)

end ProofLedger.Decimal
