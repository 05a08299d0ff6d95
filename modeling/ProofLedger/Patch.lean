import ProofLedger.Json.Record

/-!
# Patches

A patch describes one change of a JSON tree at a path of keys. To set or merge creates the
objects on the way, replacing what is no object; to unset what is not there changes nothing.
-/

namespace ProofLedger

/-- A place in a tree: the keys from the root. -/
abbrev Path := List String

/-- The kind of change. -/
inductive PatchOp where
  /-- replace the value -/
  | set
  /-- override single fields of an object -/
  | merge
  /-- remove the value -/
  | unset
  deriving DecidableEq, Repr, Inhabited

namespace PatchOp

/-- The name of a kind of change. -/
def name : PatchOp → String
  | .set => "set"
  | .merge => "merge"
  | .unset => "unset"

/-- Reads a kind of change from JSON. -/
def ofJson? : Json → Option PatchOp :=
  Json.asConstant? (Json.constantNamed name [.set, .merge, .unset])

end PatchOp

/-- One change of a tree. -/
structure Patch where
  op : PatchOp
  path : Path
  value : Option Json := none

namespace Json

/-- Changes the value at a path. The function is given the value that is there, `null` if there
    is none; objects on the way are created. -/
def alterAt (change : Json → Json) : Path → Json → Json
  | [], v => change v
  | key :: rest, object fields =>
    object (Keyed.insert key (alterAt change rest ((Keyed.find? key fields).getD null)) fields)
  | key :: rest, _ => object [(key, alterAt change rest null)]

/-- Removes the value at a path; the empty path leaves `null`. -/
def removeAt : Path → Json → Json
  | [], _ => null
  | [key], object fields => object (Keyed.erase key fields)
  | key :: rest, object fields =>
    match Keyed.find? key fields with
    | none => object fields
    | some v => object (Keyed.insert key (removeAt rest v) fields)
  | _ :: _, v => v

/-- The value at a path. -/
def getAt? : Path → Json → Option Json
  | [], v => some v
  | key :: rest, v => (v.get? key).bind (getAt? rest)

/-- A value overridden by another: fields by fields into an object, otherwise as a whole. -/
def mergeWith (incoming : Option Json) (old : Json) : Json :=
  match incoming, old with
  | some (object new), object fields => object (Keyed.merge fields new)
  | some (object new), _ => object (Keyed.merge [] new)
  | some v, _ => v
  | none, v => v

end Json

namespace Patch

/-- Replaces the value at a path. -/
def set (path : Path) (value : Json) : Patch := ⟨.set, path, some value⟩

/-- Overrides fields of the object at a path. -/
def merge (path : Path) (value : Json) : Patch := ⟨.merge, path, some value⟩

/-- Removes the value at a path. -/
def unset (path : Path) : Patch := ⟨.unset, path, none⟩

/-- The path with dots between its keys. -/
def displayPath (p : Patch) : String := ".".intercalate p.path

/-- Applies one patch. -/
def apply (p : Patch) (tree : Json) : Json :=
  match p.op with
  | .set => Json.alterAt (fun _ => p.value.getD .null) p.path tree
  | .merge => Json.alterAt (Json.mergeWith p.value) p.path tree
  | .unset => Json.removeAt p.path tree

/-- Applies patches in order. -/
def applyAll (patches : List Patch) (tree : Json) : Json :=
  patches.foldl (fun t p => p.apply t) tree

/-- A patch in JSON. -/
def toJson (p : Patch) : Json :=
  .ofPresent [("op", some (.string p.op.name)), ("path", some (.ofList .string p.path)),
    ("value", p.value)]

/-- Reads a patch from JSON; `null` as its value is no value. -/
def ofJson? (v : Json) : Option Patch := do
  let r ← v.record? ["op", "path", "value"]
  return {
    op := ← r.required "op" PatchOp.ofJson?
    path := ← r.required "path" (Json.asListOf? Json.asString?)
    value := ← r.optional "value" some }

end Patch

end ProofLedger
