/-!
# Tokens of a document

The pieces that a document consists of: its marks, its scalars, and the openings and closings of
its collections, also where only the indentation shows them.
-/

namespace ProofLedger.Yaml

/-- A token. -/
inductive Token where
  /-- the version of the language, in two numbers -/
  | version (major minor : Nat)
  /-- a short handle for the beginnings of tags -/
  | tagHandle (handle meaning : List Char)
  | documentStart
  | documentEnd
  | blockSequenceStart
  | blockMappingStart
  | blockEnd
  | flowSequenceStart
  | flowSequenceEnd
  | flowMappingStart
  | flowMappingEnd
  /-- the dash of a list item -/
  | blockEntry
  /-- the comma of a flow collection -/
  | flowEntry
  /-- before the key of an entry -/
  | key
  /-- before the value of an entry -/
  | value
  | anchor (name : List Char)
  | alias (name : List Char)
  /-- a tag by its handle, which may be empty, and the rest -/
  | tag (handle suffix : List Char)
  | scalar (text : List Char) (plain : Bool)
  deriving DecidableEq, Repr

end ProofLedger.Yaml
