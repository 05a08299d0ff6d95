import ProofLedger.Decimal.Read
import ProofLedger.Json.Basic

/-!
# Plain scalars

What an unquoted word means: nothing, a truth value, a number, or else the text itself. Integers
have up to 128 bits and may be hexadecimal, octal or binary; decimal digits that begin with a
zero are text.
-/

namespace ProofLedger.Yaml

/-- The value of a digit in a base up to sixteen. -/
def digitIn? (base : Nat) (c : Char) : Option Nat :=
  let n :=
    if '0' ≤ c ∧ c ≤ '9' then c.toNat - '0'.toNat
    else if 'a' ≤ c ∧ c ≤ 'f' then c.toNat - 'a'.toNat + 10
    else if 'A' ≤ c ∧ c ≤ 'F' then c.toNat - 'A'.toNat + 10
    else base
  if n < base then some n else none

/-- A number in a base. -/
def natIn? (base : Nat) (cs : List Char) : Option Nat :=
  if cs.isEmpty then none
  else (cs.mapM (digitIn? base)).map fun ds => ds.foldl (fun n d => n * base + d) 0

/-- Whether a text consists of several digits of which the first is zero. -/
def hasLeadingZero : List Char → Bool
  | '0' :: c :: r => (c :: r).all Char.isDigit
  | _ => false

/-- A number without its sign, in any of the four notations. -/
def magnitude? (cs : List Char) : Option Nat :=
  match cs with
  | '0' :: 'x' :: r => natIn? 16 r
  | '0' :: 'o' :: r => natIn? 8 r
  | '0' :: 'b' :: r => natIn? 2 r
  | r => if hasLeadingZero r then none else natIn? 10 r

/-- An integer with an optional sign. -/
def integer? (cs : List Char) : Option Int :=
  match cs with
  | '-' :: r => (magnitude? r).map fun n => -(n : Int)
  | '+' :: r => (magnitude? r).map Int.ofNat
  | r => (magnitude? r).map Int.ofNat

/-- A text without a sign in front. -/
def unsigned (cs : List Char) : List Char :=
  match cs with
  | '+' :: r | '-' :: r => r
  | r => r

/-- The special doubles. -/
def special? (s : String) : Option Float :=
  if [".nan", ".NaN", ".NAN"].contains s then some (0.0 / 0.0)
  else if [".inf", ".Inf", ".INF", "+.inf", "+.Inf", "+.INF"].contains s then some (1.0 / 0.0)
  else if ["-.inf", "-.Inf", "-.INF"].contains s then some (-1.0 / 0.0)
  else none

/-- A double: a special one, or a finite number in decimal notation. -/
def double? (cs : List Char) : Option Float :=
  (special? (String.ofList cs)).or ((Decimal.real? cs).filter Float.isFinite)

/-- Whether an integer fits 128 bits, with a sign or without. -/
def fits128 (n : Int) : Bool := -(Nat.pow 2 127 : Int) ≤ n && n < (Nat.pow 2 128 : Int)

/-- Whether a text stands for nothing. -/
def isNull (s : String) : Bool := ["~", "null", "Null", "NULL"].contains s

/-- A truth value. -/
def truth? (s : String) : Option Bool :=
  if ["true", "True", "TRUE"].contains s then some true
  else if ["false", "False", "FALSE"].contains s then some false
  else none

/-- An integer of at most 128 bits. -/
def wideInteger? (cs : List Char) : Option Int := (integer? cs).filter fits128

/-- What a plain scalar means. -/
def plainScalar (cs : List Char) : Json :=
  let s := String.ofList cs
  if cs.isEmpty || isNull s then .null
  else
    match truth? s, wideInteger? cs with
    | some b, _ => .bool b
    | none, some n => .int n
    | none, none =>
      if hasLeadingZero (unsigned cs) then .string s
      else ((double? cs).map Json.float).getD (.string s)

end ProofLedger.Yaml
