import ProofLedger.Text.Blank
import ProofLedger.Text.Comment

/-!
# Normal forms of statements and goals

A statement is compared by its text without comments and with collapsed blanks. A goal is
compared by its conclusion only: what stands after the last turnstile.
-/

namespace ProofLedger.Text

/-- The normal form of a statement. -/
def normalize (cs : List Char) : List Char := collapse (stripComments cs)

/-- What follows the last occurrence of a character, or everything if there is none. -/
def afterLast (mark : Char) (cs : List Char) : List Char :=
  (cs.reverse.takeWhile (· != mark)).reverse

/-- The signature of a goal, unless its conclusion is blank. -/
def signature (cs : List Char) : Option (List Char) :=
  match collapse (afterLast '⊢' (stripComments cs)) with
  | [] => none
  | c :: r => some (c :: r)

/-- The normal form of a statement, on strings. -/
def normalizeStatement (s : String) : String := String.ofList (normalize s.toList)

/-- The signature of a goal, on strings. -/
def goalSignature (s : String) : Option String := (signature s.toList).map String.ofList

end ProofLedger.Text
