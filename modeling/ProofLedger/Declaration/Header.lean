import ProofLedger.Declaration
import ProofLedger.Text.Statement
import ProofLedger.Text.WordChar

/-!
# Headers of declarations

A line starts a declaration when it holds, after blanks, any number of attributes and modifiers
and then a declaration keyword. What follows the keyword gives the name, the statement (from the
first colon outside of all brackets) and whether a body follows (`:=` outside of all brackets).
-/

namespace ProofLedger.Declaration

open Text

/-- A text without the attributes at its start. One that is not closed stays. -/
def skipAttributes (cs : List Char) : List Char :=
  match cs with
  | '@' :: '[' :: r =>
    match _h : r.dropWhile (· != ']') with
    | ']' :: rest => skipAttributes (trimStart rest)
    | _ => cs
  | _ => cs
termination_by cs.length
decreasing_by
  have h₁ := (List.dropWhile_sublist (· != ']') (l := r)).length_le
  have h₂ := (List.dropWhile_sublist isBlank (l := rest)).length_le
  rw [_h] at h₁
  simp only [List.length_cons, trimStart] at h₁ h₂ ⊢
  omega

/-- The words that may stand before a declaration keyword. -/
def modifiers : List (List Char) :=
  ["private", "protected", "noncomputable", "partial", "unsafe", "nonrec"].map String.toList

/-- A text without the modifiers at its start, each with the blanks after it. -/
def skipModifiers (cs : List Char) : List Char :=
  match modifiers.find? (·.isPrefixOf cs) with
  | none => cs
  | some m =>
    match _h : cs.drop m.length with
    | [] => cs
    | c :: r => if isBlank c then skipModifiers (trimStart r) else cs
termination_by cs.length
decreasing_by
  have h₁ := (List.dropWhile_sublist isBlank (l := r)).length_le
  have h₂ := congrArg List.length _h
  simp only [List.length_drop, List.length_cons, trimStart] at h₁ h₂ ⊢
  omega

/-- The declaration keywords. -/
def keywords : List String := ["theorem", "lemma", "example", "def", "definition"]

/-- A keyword at the start of a text, with what follows; it must not run on into a longer
    word. -/
def keyword? (cs : List Char) : Option (DeclarationKind × List Char) :=
  keywords.findSome? fun k =>
    if k.toList.isPrefixOf cs then
      let rest := cs.drop k.toList.length
      if isWordAt rest.head? then none
      else (DeclarationKind.ofKeyword? k).map fun kind => (kind, rest)
    else none

/-- The declaration that a line starts, with what follows the keyword. -/
def header? (line : List Char) : Option (DeclarationKind × List Char) :=
  keyword? (skipModifiers (skipAttributes (trimStart line)))

/-- Whether a character ends the name of a declaration. -/
def endsLabel (c : Char) : Bool :=
  isBlank c || c == ':' || c == '(' || c == '{' || c == '[' || c == '⦃'

/-- The name after a keyword, possibly empty, and what follows it. -/
def splitLabel (cs : List Char) : List Char × List Char :=
  let trimmed := trimStart cs
  (trimmed.takeWhile (!endsLabel ·), trimmed.dropWhile (!endsLabel ·))

/-- Whether a character opens a bracket. -/
def opensBracket (c : Char) : Bool :=
  c == '(' || c == '[' || c == '{' || c == '⟨' || c == '⦃'

/-- Whether a character closes a bracket. -/
def closesBracket (c : Char) : Bool :=
  c == ')' || c == ']' || c == '}' || c == '⟩' || c == '⦄'

/-- The number of open brackets after one more character. A bracket that closes nothing does
    not count. Texts are taken to nest fewer than `2^31` brackets. -/
def depthAfter (depth : Nat) (c : Char) : Nat :=
  if opensBracket c then depth + 1 else if closesBracket c then depth - 1 else depth

/-- The text up to a body mark outside of all brackets, and whether there is one. -/
def untilBody (depth : Nat) : List Char → List Char × Bool
  | [] => ([], false)
  | c :: r =>
    if depth = 0 && c == ':' && r.head? == some '=' then ([], true)
    else
      let (statement, hasBody) := untilBody (depthAfter depth c) r
      (c :: statement, hasBody)

/-- The text between the first colon and the body mark, both outside of all brackets, and
    whether there is a body mark. -/
def splitHeader (depth : Nat) : List Char → Option (List Char) × Bool
  | [] => (none, false)
  | c :: r =>
    if depth = 0 && c == ':' then
      if r.head? == some '=' then (none, true)
      else
        let (statement, hasBody) := untilBody 0 r
        (some statement, hasBody)
    else splitHeader (depthAfter depth c) r

/-- The normal form of the statement after the name of a declaration, unless it is blank, and
    whether there is a body. -/
def parseHeader (cs : List Char) : Option (List Char) × Bool :=
  let (statement, hasBody) := splitHeader 0 cs
  match statement.map normalize with
  | some (c :: r) => (some (c :: r), hasBody)
  | _ => (none, hasBody)

end ProofLedger.Declaration
