/-!
# Reading decimals

Whole numbers, integers and reals in decimal notation. A sign may stand in front; nothing else
may stand before or after the number.
-/

namespace ProofLedger.Decimal

/-- The number that digits denote. -/
def ofDigits (digits : List Char) : Nat :=
  digits.foldl (fun n c => n * 10 + (c.toNat - '0'.toNat)) 0

/-- A number of digits only. -/
def digits? (cs : List Char) : Option Nat :=
  if cs.isEmpty || !cs.all Char.isDigit then none else some (ofDigits cs)

/-- A number below a bound, with an optional plus sign. -/
def natBelow? (bound : Nat) (cs : List Char) : Option Nat :=
  let body := match cs with
    | '+' :: r => r
    | _ => cs
  (digits? body).filter (· < bound)

/-- A whole number of 64 bits. -/
def nat64? (s : String) : Option Nat := natBelow? UInt64.size s.toList

/-- An integer of 64 bits. -/
def int64? (s : String) : Option Int :=
  match s.toList with
  | '-' :: r => ((digits? r).filter (· ≤ Nat.pow 2 63)).map fun n => -(n : Int)
  | cs => (natBelow? (Nat.pow 2 63) cs).map Int.ofNat

/-- The double nearest to `significand * 10 ^ exponent`. Exponents that lead out of the range of
    doubles in any case are cut off. -/
def nearest (significand : Nat) (exponent : Int) : Float :=
  let places : Int := (Nat.toDigits 10 significand).length
  if significand = 0 || exponent + places < -400 then 0
  else if 400 < exponent + places then 1.0 / 0.0
  else if 0 ≤ exponent then Float.ofScientific significand false exponent.toNat
  else Float.ofScientific significand true (-exponent).toNat

/-- The exponent of a real, which is zero if there is none. -/
def exponent? (cs : List Char) : Option Int :=
  match cs with
  | [] => some 0
  | 'e' :: r | 'E' :: r =>
    match r with
    | '-' :: r => (digits? r).map fun n => -(n : Int)
    | '+' :: r => (digits? r).map Int.ofNat
    | r => (digits? r).map Int.ofNat
  | _ => none

/-- A real without a sign: digits on at least one side of the point, and an optional exponent. -/
def unsignedReal? (cs : List Char) : Option Float := do
  let whole := cs.takeWhile Char.isDigit
  let r := cs.dropWhile Char.isDigit
  let (fraction, r) : List Char × List Char :=
    match r with
    | '.' :: r => (r.takeWhile Char.isDigit, r.dropWhile Char.isDigit)
    | r => ([], r)
  if whole.isEmpty && fraction.isEmpty then none
  else return nearest (ofDigits (whole ++ fraction)) ((← exponent? r) - (fraction.length : Int))

/-- A finite real in decimal notation as the nearest double, infinite if it is too large. -/
def real? (cs : List Char) : Option Float :=
  match cs with
  | '-' :: r => (unsignedReal? r).map fun x => -x
  | '+' :: r => unsignedReal? r
  | r => unsignedReal? r

end ProofLedger.Decimal
