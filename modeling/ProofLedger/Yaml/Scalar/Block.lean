import ProofLedger.Yaml.Character

/-!
# Block scalars

A block scalar is a header and the indented lines below it. In a literal scalar the lines stay as
they are; in a folded one a line break between two lines that begin with no blank is a space. The
header may tell how far the lines are indented, and what becomes of the line breaks at the end:
one is kept, or none, or all of them.
-/

namespace ProofLedger.Yaml

/-- What becomes of the line breaks at the end of a block scalar. -/
inductive Chomping where
  | clip
  | strip
  | keep
  deriving DecidableEq, Repr

/-- What the header of a block scalar says. -/
structure BlockHeader where
  chomping : Chomping := .clip
  /-- columns by which the lines are indented further than what is around the scalar -/
  increment : Option Nat := none

/-- The sign of a header that says what becomes of the line breaks. -/
def chomping? : List Char → Option (Chomping × List Char)
  | '+' :: r => some (.keep, r)
  | '-' :: r => some (.strip, r)
  | _ => none

/-- The digit of a header. A zero is refused. -/
def increment? : List Char → Option (Option Nat × List Char)
  | c :: r =>
    if c == '0' then none
    else if c.isDigit then some (some (c.toNat - '0'.toNat), r)
    else some (none, c :: r)
  | [] => some (none, [])

/-- What a line with the header of a block scalar says. -/
def readHeader (line : List Char) : Option BlockHeader := do
  let (header, r) : BlockHeader × List Char ←
    match chomping? line with
    | some (chomping, r) => do
      let (increment, r) ← increment? r
      pure (⟨chomping, increment⟩, r)
    | none => do
      let (increment, r) ← increment? line
      match increment, chomping? r with
      | some _, some (chomping, r) => pure (⟨chomping, increment⟩, r)
      | _, _ => pure (⟨.clip, increment⟩, r)
  match r.dropWhile isBlank with
  | [] | '#' :: _ => return header
  | _ => none

/-- The blank lines before a line of a block scalar. -/
structure BlankLines where
  breaks : List Char
  /-- the column where the text goes on -/
  column : Nat
  /-- the largest column that a blank line reaches -/
  widest : Nat
  /-- the number of characters, with the indentation after the lines -/
  length : Nat

/-- Blank lines and the indentation after them, up to a column if there is one. A tab in the
    indentation is refused. -/
def blankLines (indent : Option Nat) (column widest : Nat) : List Char → Option BlankLines
  | [] => some ⟨[], column, max widest column, 0⟩
  | c :: r =>
    let inside := (indent.map fun n => decide (column < n)).getD true
    if c == ' ' && inside then
      (blankLines indent (column + 1) widest r).map fun b => { b with length := b.length + 1 }
    else if c == '\t' && inside then none
    else if isBreak c then
      (blankLines indent 0 (max widest column) r).map fun b =>
        { b with breaks := c :: b.breaks, length := b.length + 1 }
    else some ⟨[], column, max widest column, 0⟩

/-- The lines of a block scalar. -/
structure BlockLines where
  text : List Char
  /-- the break that ends the last line -/
  lastBreak : List Char
  /-- the breaks of blank lines after it -/
  blankBreaks : List Char
  /-- the number of characters -/
  length : Nat

/-- Reads the lines of a block scalar that is indented to a column. The text begins with the first
    of them, if its column is that one. Before it were the break that ended another line and the
    breaks of blank lines, and `afterBlank` says whether that other line began with a blank. -/
def readLines (literal : Bool) (indent : Nat) (afterBlank : Bool)
    (lastBreak blankBreaks : List Char) (column : Nat) (cs : List Char) : Option BlockLines :=
  if column = indent ∧ cs ≠ [] then do
    let startsBlank := (cs.head?.map isBlank).getD false
    let joint :=
      if !literal && lastBreak == ['\n'] && !afterBlank && !startsBlank then
        if blankBreaks.isEmpty then [' '] else blankBreaks
      else lastBreak ++ blankBreaks
    let line := cs.takeWhile fun c => !isBreak c
    let tail := cs.dropWhile fun c => !isBreak c
    let b ← blankLines (some indent) 0 0 (tail.drop 1)
    let more ← readLines literal indent startsBlank (tail.take 1) b.breaks b.column
      ((tail.drop 1).drop b.length)
    return { more with
      text := joint ++ line ++ more.text
      length := line.length + (tail.take 1).length + b.length + more.length }
  else return ⟨[], lastBreak, blankBreaks, 0⟩
termination_by cs.length
decreasing_by
  have le := length_dropWhile_le (fun c => !isBreak c) cs
  have pos := List.length_pos_iff.2 (‹column = indent ∧ cs ≠ []›).2
  simp only [List.length_drop]
  omega

/-- Reads a block scalar after its opening mark, inside a block indented to a column. Gives back the
    scalar with the number of characters up to its end. -/
def readBlock (literal : Bool) (around : Int) (cs : List Char) : Option (List Char × Nat) := do
  let line := cs.takeWhile fun c => !isBreak c
  let header ← readHeader line
  let body := cs.drop (line.length + 1)
  let told := header.increment.map fun n => (max around 0).toNat + n
  let b ← blankLines told 0 0 body
  let indent := told.getD (max (max (b.widest : Int) (around + 1)) 1).toNat
  let lines ← readLines literal indent false [] b.breaks b.column (body.drop b.length)
  let kept := match header.chomping with
    | .strip => []
    | .clip => lines.lastBreak
    | .keep => lines.lastBreak ++ lines.blankBreaks
  return (lines.text ++ kept, line.length + 1 + b.length + lines.length)

end ProofLedger.Yaml
