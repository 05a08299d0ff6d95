import ProofLedger.Json.Basic
import ProofLedger.Table

/-!
# Typed records in JSON

A record is an object whose fields are found by name, or an array whose items are the fields in
order. Fields that a record does not know are ignored in an object; in an array they are refused
or ignored, as the caller says. A field is required, defaulted (it may be missing, but not `null`)
or optional (it may be both). A constant of an enumeration is its name, or an object with that name
as its only key and `null` under it.
-/

namespace ProofLedger.Json

/-- The payload of a record: how its fields are looked up. -/
abbrev Record := String → Option Json

/-- What becomes of the items of an array beyond the fields of a record. -/
inductive Surplus where
  | refused
  | ignored
  deriving DecidableEq, Repr

/-- Opens a value as a record with the given field names. -/
def record? (names : List String) (v : Json) (surplus : Surplus := .refused) : Option Record :=
  match v with
  | object fields => some fun name => Keyed.find? name fields
  | array items =>
    if surplus = .ignored ∨ items.length ≤ names.length then
      some fun name => Keyed.find? name (names.zip items)
    else none
  | _ => none

/-- A required field. -/
def Record.required {α : Type} (r : Record) (name : String) (read : Json → Option α) :
    Option α :=
  (r name).bind read

/-- A field with a default for when it is missing. -/
def Record.defaulted {α : Type} (r : Record) (name : String) (default : α)
    (read : Json → Option α) : Option α :=
  match r name with
  | none => some default
  | some v => read v

/-- A field that may be missing or `null`. -/
def Record.optional {α : Type} (r : Record) (name : String) (read : Json → Option α) :
    Option (Option α) :=
  match r name with
  | none => some none
  | some null => some none
  | some v => (read v).map some

/-- Reads a boolean. -/
def asBool? : Json → Option Bool
  | bool b => some b
  | _ => none

/-- Reads a number as a double; integers of 64 bits, with a sign or without, count as numbers. -/
def asFloat? : Json → Option Float
  | float x => some x
  | int n =>
    if 0 ≤ n then if n < UInt64.size then some n.toNat.toUInt64.toFloat else none
    else if -(Nat.pow 2 63 : Int) ≤ n then some (-(-n).toNat.toUInt64.toFloat)
    else none
  | _ => none

/-- Reads every item of an array. -/
def asListOf? {α : Type} (read : Json → Option α) : Json → Option (List α)
  | array items => items.mapM read
  | _ => none

/-- Reads an object with values of one type. -/
def asTableOf? {α : Type} (read : Json → Option α) : Json → Option (Table α)
  | object fields => (Keyed.traverse read fields).map fun entries => Table.ofList entries
  | _ => none

/-- Reads a constant of an enumeration by its name. -/
def asConstant? {α : Type} (ofName : String → Option α) : Json → Option α
  | string name => ofName name
  | object [(name, null)] => ofName name
  | _ => none

/-- The constant of a list that has a given name. -/
def constantNamed {α : Type} (name : α → String) (all : List α) (text : String) : Option α :=
  all.find? fun a => name a == text

/-- A table as an object. -/
def ofTable {α : Type} (write : α → Json) (t : Table α) : Json :=
  object (Keyed.mapValues write t.entries)

/-- A list as an array. -/
def ofList {α : Type} (write : α → Json) (items : List α) : Json := array (items.map write)

/-- A natural number. -/
def ofNat (n : Nat) : Json := int n

end ProofLedger.Json
