import ProofLedger.Decimal.Binary

/-!
# Fixed decimal places

A double is rounded to a given number of places by its exact value; of two equally near
decimals the even one is taken.
-/

namespace ProofLedger.Decimal

/-- A quotient rounded to the nearest natural number, ties to the even one. -/
def roundDiv (num den : Nat) : Nat :=
  let down := num / den
  let rest := num % den
  if 2 * rest < den then down
  else if den < 2 * rest then down + 1
  else if down % 2 == 0 then down else down + 1

/-- A double with a fixed number of decimal places. The sign stays even if zero is left. -/
def fixed (places : Nat) (x : Float) : String :=
  match Reading.of x with
  | .nan => "NaN"
  | .infinite negative => if negative then "-inf" else "inf"
  | .finite negative v =>
    let (num, den) := v.ratio
    let scaled := roundDiv (num * Nat.pow 10 places) den
    let whole := toString (scaled / Nat.pow 10 places)
    let fraction := toString (scaled % Nat.pow 10 places)
    let padded := String.ofList (List.replicate (places - fraction.length) '0') ++ fraction
    (if negative then "-" else "") ++ whole ++ (if places == 0 then "" else "." ++ padded)

end ProofLedger.Decimal
