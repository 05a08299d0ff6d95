import ProofLedger.Json.Basic

/-!
# JSON number texts

A number without fraction and exponent that fits 64 bits, signed or unsigned, is an integer;
`-0` and everything else is a double. The digits of a double are collected into a 64-bit
significand as long as they fit, later digits only count places, and the result is scaled by
one power of ten, so a text of more than about sixteen digits may read as a neighbour of the
nearest double. A number beyond the largest double is refused.
-/

namespace ProofLedger.Json

/-- The value of a decimal digit. -/
def digitValue (c : Char) : Nat := c.toNat - '0'.toNat

/-- Whether a significand fits 64 bits. -/
def fitsWord (n : Nat) : Bool := n < UInt64.size

/-- Digits in front of the point: the significand, the number of digits that did not fit, and
    the rest of the text. -/
def takeWhole (significand : Nat) : List Char → Nat × Nat × List Char
  | [] => (significand, 0, [])
  | c :: r =>
    if c.isDigit then
      let next := significand * 10 + digitValue c
      if fitsWord next then takeWhole next r
      else (significand, ((c :: r).takeWhile Char.isDigit).length, (c :: r).dropWhile Char.isDigit)
    else (significand, 0, c :: r)

/-- Digits after the point: the significand, the number of digits taken into it, and the rest
    of the text. Digits after the first that does not fit are skipped. -/
def takeFraction (significand : Nat) : List Char → Nat × Nat × List Char
  | [] => (significand, 0, [])
  | c :: r =>
    if c.isDigit then
      let next := significand * 10 + digitValue c
      if fitsWord next then
        let (s, places, rest) := takeFraction next r
        (s, places + 1, rest)
      else (significand, 0, (c :: r).dropWhile Char.isDigit)
    else (significand, 0, c :: r)

/-- An exponent after its letter, with the rest of the text. -/
def takeExponent (cs : List Char) : Option (Int × List Char) :=
  let (negative, r) : Bool × List Char :=
    match cs with
    | '-' :: r => (true, r)
    | '+' :: r => (false, r)
    | r => (false, r)
  let digits := r.takeWhile Char.isDigit
  if digits.isEmpty then none
  else
    let n := digits.foldl (fun acc c => acc * 10 + digitValue c) 0
    some (if negative then -(n : Int) else n, r.dropWhile Char.isDigit)

/-- A power of ten as a double. -/
def powerOfTen (n : Nat) : Float := Float.ofScientific 1 false n

/-- A double scaled by a power of ten, unless it leaves the finite range. Far negative
    exponents are approached in steps of `10 ^ 308`. -/
def scaleTen (x : Float) (exponent : Int) : Option Float :=
  if exponent.natAbs ≤ 308 then
    if 0 ≤ exponent then
      let y := x * powerOfTen exponent.toNat
      if y.isInf then none else some y
    else some (x / powerOfTen (-exponent).toNat)
  else if x == 0 then some x
  else if 0 ≤ exponent then none
  else scaleTen (x / powerOfTen 308) (exponent + 308)
termination_by exponent.natAbs
decreasing_by omega

/-- The double of a sign, a significand and a power of ten. -/
def ofDecimal (negative : Bool) (significand : Nat) (exponent : Int) : Option Json := do
  let x ← scaleTen significand.toUInt64.toFloat exponent
  return float (if negative then -x else x)

/-- The number after its whole digits. -/
def finishNumber (negative : Bool) (significand dropped : Nat) :
    List Char → Option (Json × List Char)
  | '.' :: r =>
    if (r.head?.map Char.isDigit).getD false then
      let (s, places, rest) := takeFraction significand r
      let base : Int := (dropped : Int) - places
      match rest with
      | 'e' :: r' | 'E' :: r' => do
        let (e, rest') ← takeExponent r'
        return (← ofDecimal negative s (base + e), rest')
      | _ => do return (← ofDecimal negative s base, rest)
    else none
  | 'e' :: r | 'E' :: r => do
    let (e, rest) ← takeExponent r
    return (← ofDecimal negative significand ((dropped : Int) + e), rest)
  | rest =>
    if dropped != 0 then do return (← ofDecimal negative significand dropped, rest)
    else if negative then
      if significand == 0 || Nat.pow 2 63 < significand then
        some (float (-significand.toUInt64.toFloat), rest)
      else some (int (-(significand : Int)), rest)
    else some (int significand, rest)

/-- Reads a number at the start of a text. A leading zero stands alone. -/
def readNumber (cs : List Char) : Option (Json × List Char) :=
  let (negative, r) : Bool × List Char :=
    match cs with
    | '-' :: r => (true, r)
    | r => (false, r)
  match r with
  | '0' :: r' =>
    if (r'.head?.map Char.isDigit).getD false then none else finishNumber negative 0 0 r'
  | c :: _ =>
    if c.isDigit then
      let (significand, dropped, rest) := takeWhole 0 r
      finishNumber negative significand dropped rest
    else none
  | [] => none

end ProofLedger.Json
