import ProofLedger.Yaml.Character

/-!
# Places in a document

A cursor is what is left of a document, with the place where that begins.
-/

namespace ProofLedger.Yaml

/-- A place in a document and the text from there on. -/
structure Cursor where
  rest : List Char
  /-- characters before the place -/
  index : Nat := 0
  line : Nat := 0
  column : Nat := 0

namespace Cursor

/-- The place after a number of characters. -/
def advance (c : Cursor) : Nat → Cursor
  | 0 => c
  | n + 1 =>
    match c.rest with
    | [] => c
    | d :: r =>
      if isBreak d then advance ⟨r, c.index + 1, c.line + 1, 0⟩ n
      else advance ⟨r, c.index + 1, c.line, c.column + 1⟩ n

/-- The place where a given end of the text begins. -/
def moveTo (c : Cursor) (rest : List Char) : Cursor := c.advance (c.rest.length - rest.length)

/-- The start of a document. -/
def ofText (cs : List Char) : Cursor := { rest := cs }

end Cursor

end ProofLedger.Yaml
