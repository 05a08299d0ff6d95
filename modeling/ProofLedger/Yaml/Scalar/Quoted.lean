import ProofLedger.Yaml.Character
import ProofLedger.Yaml.Scalar

/-!
# Scalars in quotes

In single quotes a quote is written twice; in double quotes a backslash escapes, also the end of
a line. Both may go over several lines, none of which may begin with the mark of a document's
start or end. The readers take the text after the opening quote and give back the scalar with
the number of characters up to its end.
-/

namespace ProofLedger.Yaml

/-- Whether a line begins here, after a gap, with the mark of a document's start or end. -/
def breaksDocument (gap rest : List Char) : Bool :=
  (gap.getLast?.map isBreak).getD false && atDocumentMark rest

/-- The rest of a scalar in single quotes. -/
def readSingle (cs : List Char) : Option (List Char × Nat) :=
  match cs with
  | [] => none
  | '\'' :: '\'' :: r => (readSingle r).map fun (s, n) => ('\'' :: s, n + 2)
  | '\'' :: _ => some ([], 1)
  | c :: r =>
    if isGap c then
      let gap := c :: r.takeWhile isGap
      let rest := r.dropWhile isGap
      if breaksDocument gap rest then none
      else (readSingle rest).map fun (s, n) => (foldGap gap ++ s, n + gap.length)
    else (readSingle r).map fun (s, n) => (c :: s, n + 1)
termination_by cs.length
decreasing_by
  all_goals simp_wf
  all_goals have := length_dropWhile_le isGap r
  all_goals omega

/-- What a letter after a backslash stands for. -/
def escape? (c : Char) : Option Char :=
  [('0', '\x00'), ('a', '\x07'), ('b', '\x08'), ('t', '\t'), ('\t', '\t'), ('n', '\n'),
    ('v', '\x0b'), ('f', '\x0c'), ('r', '\r'), ('e', '\x1b'), (' ', ' '), ('"', '"'),
    ('/', '/'), ('\\', '\\'), ('N', '\u0085'), ('_', '\u00a0'), ('L', '\u2028'),
    ('P', '\u2029')].lookup c

/-- The number of hexadecimal digits after an escape letter. -/
def escapeDigits? (c : Char) : Option Nat := [('x', 2), ('u', 4), ('U', 8)].lookup c

/-- A character by its code. -/
def charOfCode? (n : Nat) : Option Char := if n.isValidChar then some (Char.ofNat n) else none

/-- The rest of a scalar in double quotes. Of a gap after an escaped line end only the further
    line breaks count. -/
def readDouble (cs : List Char) : Option (List Char × Nat) :=
  match cs with
  | [] => none
  | '"' :: _ => some ([], 1)
  | '\\' :: [] => none
  | '\\' :: c :: r =>
    if isBreak c then
      let gap := r.takeWhile isGap
      let rest := r.dropWhile isGap
      if breaksDocument (c :: gap) rest then none
      else (readDouble rest).map fun (s, n) => (gap.filter isBreak ++ s, n + gap.length + 2)
    else
      match escape? c, escapeDigits? c with
      | some e, _ => (readDouble r).map fun (s, n) => (e :: s, n + 2)
      | none, some digits => do
        let code ← natIn? 16 (r.take digits)
        let e ← if (r.take digits).length = digits then charOfCode? code else none
        let (s, n) ← readDouble (r.drop digits)
        return (e :: s, n + digits + 2)
      | none, none => none
  | c :: r =>
    if isGap c then
      let gap := c :: r.takeWhile isGap
      let rest := r.dropWhile isGap
      if breaksDocument gap rest then none
      else (readDouble rest).map fun (s, n) => (foldGap gap ++ s, n + gap.length)
    else (readDouble r).map fun (s, n) => (c :: s, n + 1)
termination_by cs.length
decreasing_by
  all_goals simp_wf
  all_goals have := length_dropWhile_le isGap r
  all_goals omega

end ProofLedger.Yaml
