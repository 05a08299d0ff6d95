import ProofLedger.Yaml.Character

/-!
# Plain scalars over several lines

A plain scalar is a row of words. A word ends at a gap, at a colon with a gap after it, and
inside a flow collection also at its marks. The next word belongs to the scalar unless a comment
or the mark of a document begins there, or its line is not indented far enough.
-/

namespace ProofLedger.Yaml

/-- Whether a plain scalar can start here. -/
def startsPlain (inFlow : Bool) : List Char → Bool
  | [] => false
  | c :: r =>
    if c == '-' then !(r.head?.map isBlank).getD false
    else if c == '?' || c == ':' then !inFlow && !atGap r
    else !isGap c && !isIndicator c

/-- The word of a plain scalar that begins here; it may be empty. In a flow collection a colon
    right before a mark is refused. -/
def readWord (inFlow : Bool) : List Char → Option (List Char)
  | [] => some []
  | c :: r =>
    if isGap c then some []
    else if inFlow && c == ':' && (r.head?.map fun d => isFlowMark d || d == '?').getD false then
      none
    else if c == ':' && atGap r || inFlow && isFlowMark c then some []
    else (readWord inFlow r).map (c :: ·)

/-- Whether a tab stands after a line break in a column before the indentation. -/
def hasTabBefore (indent : Int) : (afterBreak : Bool) → (column : Nat) → List Char → Bool
  | _, _, [] => false
  | afterBreak, column, c :: r =>
    if isBreak c then hasTabBefore indent true 0 r
    else afterBreak && c == '\t' && decide ((column : Int) < indent) ||
      hasTabBefore indent afterBreak (column + 1) r

/-- A plain scalar as it was read. -/
structure PlainText where
  text : List Char
  /-- the number of characters up to its end, with the gap after it -/
  length : Nat
  /-- whether the gap after it goes over a line end -/
  endsLine : Bool

/-- Reads a plain scalar, whose further lines are indented up to a column at least. -/
def readPlain (inFlow : Bool) (indent : Int) (cs : List Char) : Option PlainText := do
  let word ← readWord inFlow cs
  let tail := cs.drop word.length
  if tail.takeWhile isGap = [] then return ⟨word, word.length, false⟩
  else
    let gap := tail.takeWhile isGap
    let next := tail.dropWhile isGap
    if hasTabBefore indent false 0 gap then none
    else
      let alone : PlainText := ⟨word, word.length + gap.length, gap.any isBreak⟩
      let column := (lastLine gap).length
      let ended := next.head? == some '#' || alone.endsLine &&
        (column == 0 && atDocumentMark next || !inFlow && decide ((column : Int) < indent))
      if ended then return alone
      else
        let more ← readPlain inFlow indent next
        if more.text.isEmpty then return alone
        else return {
          text := word ++ foldGap gap ++ more.text
          length := alone.length + more.length
          endsLine := more.endsLine }
termination_by cs.length
decreasing_by
  have lt := length_dropWhile_lt ‹¬tail.takeWhile isGap = []›
  have le : tail.length ≤ cs.length := by simp [tail]
  exact Nat.lt_of_lt_of_le lt le

end ProofLedger.Yaml
