import ProofLedger.Json.Basic

/-!
# Overlays

One value laid over another: objects are united key by key, and anything else replaces what it
is laid over.
-/

namespace ProofLedger.Json

mutual

/-- A value laid over an old one. -/
def overlay (old : Json) : Json → Json
  | object fields =>
    match old with
    | object oldFields => object (overlayFields oldFields fields)
    | _ => object fields
  | v => v

/-- Fields laid over old ones. -/
def overlayFields (old : List (String × Json)) : List (String × Json) → List (String × Json)
  | [] => old
  | (key, v) :: rest =>
    let value := match Keyed.find? key old with
      | some w => overlay w v
      | none => v
    overlayFields (Keyed.insert key value old) rest

end

end ProofLedger.Json
