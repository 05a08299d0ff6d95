import ProofLedger.Digest.Sha256

/-!
# Identities of obligations

Goals and nodes are named after what they stand for: a declaration by its line and normal form,
an error outside of all declarations by its line and normal form. The name is a digest of these
parts, with a NUL between them.
-/

namespace ProofLedger

/-- What an obligation is recognised by. -/
inductive Identity where
  /-- a declaration: its line, and its statement or else its kind and label -/
  | declaration (line : Nat) (key : String)
  /-- an error outside of all declarations: its line and message -/
  | diagnostic (line : Nat) (message : String)
  deriving DecidableEq, Repr

namespace Identity

/-- Parts with a NUL between neighbours. -/
def joinParts : List String → List Char
  | [] => []
  | [p] => p.toList
  | p :: ps => p.toList ++ '\x00' :: joinParts ps

/-- The parts an identity consists of. -/
def parts : Identity → List String
  | .declaration line key => [toString line, key]
  | .diagnostic line message => ["diagnostic", toString line, message]

/-- The text that is digested. -/
def preimage (i : Identity) : List Char := joinParts i.parts

/-- The first eight bytes of the digest in hexadecimal. -/
def shortHash (i : Identity) : String :=
  String.ofList (Digest.hex
    ((Digest.sha256 (String.ofList i.preimage).toUTF8.toList).take 8))

/-- The id of the goal. -/
def goalId (i : Identity) : String := "goal-" ++ i.shortHash

/-- The id of the node. -/
def nodeId : Identity → String
  | .declaration line key => "decl-" ++ shortHash (.declaration line key)
  | .diagnostic line message => "diag-" ++ shortHash (.diagnostic line message)

end Identity

end ProofLedger
