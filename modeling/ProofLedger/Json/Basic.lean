import ProofLedger.Keyed

/-!
# JSON values

Numbers are integers or doubles, never both, and a reader of integers refuses a double. The fields
of an object are sorted by key.
-/

namespace ProofLedger

/-- A JSON value. -/
inductive Json where
  | null
  | bool (b : Bool)
  | int (n : Int)
  | float (x : Float)
  | string (s : String)
  | array (items : List Json)
  | object (fields : List (String × Json))

namespace Json

instance : Inhabited Json := ⟨null⟩

/-- The object without fields. -/
def emptyObject : Json := object []

/-- The object with the given fields, the last of equal keys kept. -/
def ofFields (fields : List (String × Json)) : Json := object (Keyed.ofList fields)

/-- The object with those of the given fields that are present. -/
def ofPresent (fields : List (String × Option Json)) : Json :=
  ofFields (fields.filterMap fun f => f.2.map fun v => (f.1, v))

/-- A value under nested keys, the outermost first. -/
def nest (levels : List String) (v : Json) : Json :=
  levels.foldr (fun key inner => ofFields [(key, inner)]) v

/-- A double as a JSON value; what is not finite has no number and becomes `null`. -/
def ofFloat (x : Float) : Json := if x.isFinite then float x else null

/-- The field of an object; other values have no fields. -/
def get? (key : String) : Json → Option Json
  | object fields => Keyed.find? key fields
  | _ => none

/-- The text of a string. -/
def asString? : Json → Option String
  | string s => some s
  | _ => none

/-- The items of an array. -/
def asArray? : Json → Option (List Json)
  | array items => some items
  | _ => none

/-- The value of an integer that is not negative. -/
def asNat? : Json → Option Nat
  | int n => if 0 ≤ n then some n.toNat else none
  | _ => none

/-- The value of an integer that is not negative and fits 64 bits. -/
def asWord? (v : Json) : Option Nat := v.asNat?.filter (· < UInt64.size)

/-- The value of an integer below `2^32`. -/
def asUInt32? (v : Json) : Option UInt32 :=
  match v.asNat? with
  | some n => if n < UInt32.size then some n.toUInt32 else none
  | none => none

/-- The value of an integer below `2^64`. -/
def asUInt64? (v : Json) : Option UInt64 := v.asWord?.map Nat.toUInt64

/-- Whether a value is an object. -/
def isObject : Json → Bool
  | object _ => true
  | _ => false

end Json

end ProofLedger
