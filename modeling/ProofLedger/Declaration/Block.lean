import ProofLedger.Declaration.Header
import ProofLedger.Text.Lines

/-!
# Blocks of declarations

A source text without comments falls into blocks: each starts with the header line of a
declaration and runs up to the line before the next header, or to the end of the text. Lines
before the first header belong to no block.
-/

namespace ProofLedger

open Text

/-- A declaration with the text of its block. -/
structure Block where
  declaration : Declaration
  text : List Char
  deriving DecidableEq, Repr

namespace Block

/-- Whether a word occurs in the text after a character, between word edges. -/
def hasWordFrom (word : List Char) : Option Char → List Char → Bool
  | _, [] => false
  | before, c :: r =>
    (!isWordAt before && word.isPrefixOf (c :: r) && !isWordAt ((c :: r).drop word.length).head?)
      || hasWordFrom word (some c) r

/-- The word that stands for a missing proof. -/
def placeholder : List Char := ['s', 'o', 'r', 'r', 'y']

/-- Whether a block holds the placeholder of a missing proof. -/
def hasPlaceholder (b : Block) : Bool := hasWordFrom placeholder none b.text

/-- The block of a header line, numbered from one, with the lines up to the next header. An
    example and a declaration without a name are named after their kind and line. -/
def ofLines (number : Nat) (kind : DeclarationKind) (header afterKeyword : List Char)
    (body : List (List Char)) : Block :=
  let (name, rest) := Declaration.splitLabel (unlines (afterKeyword :: body))
  let (statement, hasBody) := Declaration.parseHeader rest
  { declaration := {
      startLine := number
      endLine := number + body.length
      kind
      label :=
        if kind == .example_ || name.isEmpty then kind.name ++ "@" ++ toString number
        else String.ofList name
      statement := if kind.isProof then statement.map String.ofList else none
      isProof := kind.isProof
      hasBody }
    text := unlines (header :: body) }

/-- The blocks of some lines, the first of which has the given number. -/
def scanLines (number : Nat) : List (List Char) → List Block
  | [] => []
  | line :: rest =>
    match Declaration.header? line with
    | none => scanLines (number + 1) rest
    | some (kind, afterKeyword) =>
      let body := rest.takeWhile fun l => (Declaration.header? l).isNone
      ofLines number kind line afterKeyword body :: scanLines (number + 1) rest

/-- The blocks of a text without comments. -/
def scan (cs : List Char) : List Block := scanLines 1 (lines cs)

end Block

end ProofLedger
