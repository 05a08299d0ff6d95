/-!
# Comments

Source text knows line comments, which start with two dashes, and block comments, which nest.
Stripping removes both and keeps every newline, so that line numbers stay the same. A closed
block comment leaves one space behind; a block comment that is never closed swallows the rest.
-/

namespace ProofLedger.Text

/-- What a position of the source text belongs to. -/
inductive Region where
  /-- text outside all comments -/
  | code
  /-- a comment up to the end of the line -/
  | lineComment
  /-- block comments, with this many more open around the innermost -/
  | blockComment (outer : Nat)
  deriving DecidableEq, Repr

/-- The text without comments, read from within a region. -/
def stripFrom : Region → List Char → List Char
  | _, [] => []
  | .lineComment, '\n' :: r => '\n' :: stripFrom .code r
  | .lineComment, _ :: r => stripFrom .lineComment r
  | .code, '/' :: '-' :: r => stripFrom (.blockComment 0) r
  | .code, '-' :: '-' :: r => stripFrom .lineComment r
  | .code, c :: r => c :: stripFrom .code r
  | .blockComment d, '/' :: '-' :: r => stripFrom (.blockComment (d + 1)) r
  | .blockComment 0, '-' :: '/' :: r => ' ' :: stripFrom .code r
  | .blockComment (d + 1), '-' :: '/' :: r => stripFrom (.blockComment d) r
  | .blockComment d, '\n' :: r => '\n' :: stripFrom (.blockComment d) r
  | .blockComment d, _ :: r => stripFrom (.blockComment d) r

/-- The text without comments. -/
def stripComments (cs : List Char) : List Char := stripFrom .code cs

end ProofLedger.Text
