import ProofLedger.Decimal.Binary

/-!
# The shortest decimal of a double

Of the decimals that read back as a given double the one with the fewest digits is chosen, and
of several such the one nearest to the double. Two layouts write it: JSON numbers use an
exponent outside of `1e-5 ≤ x < 1e16`, plain numbers never do.
-/

namespace ProofLedger.Decimal

/-- A decimal `digits * 10 ^ exponent`. -/
structure Scientific where
  digits : Nat
  exponent : Int
  deriving DecidableEq, Repr

/-- The decimals between which a magnitude lies on a grid of `10 ^ k`, together with the ends of
    the interval of numbers that read back as it; all are multiples of the common unit. -/
structure Grid where
  /-- a step of the grid -/
  step : Nat
  /-- the value -/
  value : Nat
  low : Nat
  high : Nat

/-- The grid of `10 ^ k` around a magnitude. Quarters of the last binary place make both ends
    of the interval whole. -/
def Grid.around (v : Magnitude) (k : Int) : Grid :=
  let (num, den) := v.ratio
  let unit := num / v.m
  let scale := Nat.pow 10 (-k).toNat
  { step := 4 * den * Nat.pow 10 k.toNat
    value := 4 * num * scale
    low := (4 * num - (if v.narrowBelow then 1 else 2) * unit) * scale
    high := (4 * num + 2 * unit) * scale }

/-- Whether a point of the grid reads back as the value. The ends of the interval do iff the
    significand is even. -/
def Grid.readsBack (g : Grid) (even : Bool) (point : Nat) : Bool :=
  let x := point * g.step
  if even then g.low ≤ x && x ≤ g.high else g.low < x && x < g.high

/-- The nearest point of the grid that reads back as the value, if one does. -/
def Grid.nearest? (g : Grid) (even : Bool) : Option Nat :=
  let below := g.value / g.step
  let above := below + 1
  match g.readsBack even below && below != 0, g.readsBack even above with
  | true, true =>
    let down := g.value - below * g.step
    let up := above * g.step - g.value
    some (if down < up || (down == up && below % 2 == 0) then below else above)
  | true, false => some below
  | false, true => some above
  | false, false => none

/-- The number of decimal places after which a fraction below one shows its first digit. -/
def leadingPlace (num den : Nat) : Nat → Nat → Nat
  | 0, z => z
  | fuel + 1, z => if den ≤ num * Nat.pow 10 z then z else leadingPlace num den fuel (z + 1)

/-- The exponent `p` with `10 ^ (p - 1) ≤ v < 10 ^ p`. -/
def decimalExponent (v : Magnitude) : Int :=
  let (num, den) := v.ratio
  if den ≤ num then ((Nat.toDigits 10 (num / den)).length : Int)
  else 1 - (leadingPlace num den 400 1 : Int)

/-- A decimal without trailing zeros; the fuel is the number of its digits. -/
def stripZeros : Nat → Scientific → Scientific
  | 0, s => s
  | fuel + 1, s =>
    if s.digits != 0 && s.digits % 10 == 0 then stripZeros fuel ⟨s.digits / 10, s.exponent + 1⟩
    else s

/-- The first grid, from coarse to fine, with a point that reads back. -/
def searchGrids (v : Magnitude) (p : Int) : Nat → Nat → Scientific
  | 0, n => ⟨0, p - n⟩
  | fuel + 1, n =>
    let k := p - n
    match (Grid.around v k).nearest? (v.m % 2 == 0) with
    | some d => stripZeros 20 ⟨d, k⟩
    | none => searchGrids v p fuel (n + 1)

/-- The shortest decimal of a magnitude. -/
def shortest (v : Magnitude) : Scientific :=
  if v.m == 0 then ⟨0, 0⟩ else searchGrids v (decimalExponent v) 20 1

/-- The decimal digits of a number. -/
def digitChars (n : Nat) : List Char := Nat.toDigits 10 n

/-- Digits with a decimal point after the first `places` of them; zeros fill up on either side.
    The fraction is empty where the number is whole. -/
def positional (digits : List Char) (exponent : Int) : List Char × List Char :=
  if 0 ≤ exponent then (digits ++ List.replicate exponent.toNat '0', [])
  else
    let places := (-exponent).toNat
    if places < digits.length then
      (digits.take (digits.length - places), digits.drop (digits.length - places))
    else (['0'], List.replicate (places - digits.length) '0' ++ digits)

/-- A number with neither exponent nor superfluous zeros: `-0.5`, `inf`, `NaN`, `-1`. -/
def plain (x : Float) : String :=
  match Reading.of x with
  | .nan => "NaN"
  | .infinite negative => if negative then "-inf" else "inf"
  | .finite negative v =>
    let s := shortest v
    let (whole, fraction) := positional (digitChars s.digits) s.exponent
    String.ofList ((if negative then ['-'] else []) ++ whole ++
      (if fraction.isEmpty then [] else '.' :: fraction))

/-- A JSON number: positional with at least one decimal while the point falls within sixteen
    places before or five after the first digit, otherwise with a signed exponent, as in `1e+16`
    and `1.5e-7`. -/
def json (x : Float) : String :=
  match Reading.of x with
  | .nan => "null"
  | .infinite _ => "null"
  | .finite negative v =>
    let s := shortest v
    let digits := digitChars s.digits
    let point : Int := digits.length + s.exponent
    let text :=
      if s.digits == 0 then ['0', '.', '0']
      else if -5 < point && point ≤ 16 then
        let (whole, fraction) := positional digits s.exponent
        whole ++ '.' :: (if fraction.isEmpty then ['0'] else fraction)
      else
        let exponent := (if 1 ≤ point then '+' else '-') :: digitChars (point - 1).natAbs
        match digits with
        | [] => []
        | [d] => d :: 'e' :: exponent
        | d :: rest => d :: '.' :: rest ++ 'e' :: exponent
    String.ofList ((if negative then ['-'] else []) ++ text)

end ProofLedger.Decimal
