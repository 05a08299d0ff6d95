import ProofLedger.Yaml.Layout
import ProofLedger.Yaml.Scalar.Block
import ProofLedger.Yaml.Scalar.Plain
import ProofLedger.Yaml.Scalar.Quoted
import ProofLedger.Yaml.Token.Label

/-!
# The tokens of a text

A document is taken apart token by token; the layout decides what a token may be and which tokens
the indentation adds. A text that cannot be taken apart to its end has no tokens.
-/

namespace ProofLedger.Yaml

/-- What the characters before a token are judged by. -/
structure Gap where
  /-- whether a key may begin here -/
  keyAllowed : Bool
  /-- whether a line begins here -/
  lineStart : Bool
  inComment : Bool := false

/-- The number of characters before the next token, and whether a key is allowed there: outside
    flow collections it is after a line break. A mark of the byte order is skipped at the start of
    a line, and a tab only where no key may begin. -/
def gapBefore (inFlow : Bool) : Gap → List Char → Nat × Bool
  | g, [] => (0, g.keyAllowed)
  | g, c :: r =>
    let past (g : Gap) : Nat × Bool :=
      let (n, allowed) := gapBefore inFlow g r
      (n + 1, allowed)
    if isBreak c then past ⟨g.keyAllowed || !inFlow, true, false⟩
    else if g.inComment || c == '#' then past ⟨g.keyAllowed, false, true⟩
    else if c == ' ' || c == '\t' && (inFlow || !g.keyAllowed) || c == '\uFEFF' && g.lineStart then
      past ⟨g.keyAllowed, false, false⟩
    else (0, g.keyAllowed)

/-- The layout with a token before which a key may begin, and the place after it. -/
def noted (c after : Cursor) (l : Layout) (t : Token) : Option (Cursor × Layout) := do
  let l ← l.noteKey c
  return (after, (l.emit t).withoutKey)

/-- Takes the token at a place. -/
def Layout.take (c : Cursor) (l : Layout) : Option (Cursor × Layout) :=
  if c.column = 0 && c.rest.head? == some '%' then do
    let (token, rest) ← readDirective (c.rest.drop 1)
    return (c.moveTo rest, ← l.betweenDocuments token)
  else if c.column = 0 && atTriple '-' c.rest then
    (l.betweenDocuments .documentStart).map fun l => (c.advance 3, l)
  else if c.column = 0 && atTriple '.' c.rest then
    (l.betweenDocuments .documentEnd).map fun l => (c.advance 3, l)
  else
    match c.rest with
    | [] => none
    | ch :: r =>
      let marked := atGap r
      let after (l : Option Layout) := l.map fun l => (c.advance 1, l)
      match ch with
      | '[' => after (l.openFlow c .flowSequenceStart)
      | '{' => after (l.openFlow c .flowMappingStart)
      | ']' => after (l.closeFlow .flowSequenceEnd)
      | '}' => after (l.closeFlow .flowMappingEnd)
      | ',' => after (l.dropKey.map fun l => (l.emit .flowEntry).withKey)
      | '*' => do
        let (name, rest) ← readAnchor r
        noted c (c.moveTo rest) l (.alias name)
      | '&' => do
        let (name, rest) ← readAnchor r
        noted c (c.moveTo rest) l (.anchor name)
      | '!' => do
        let (token, rest) ← readTag l.inFlow c.rest
        noted c (c.moveTo rest) l token
      | '\'' => do
        let (text, n) ← readSingle r
        noted c (c.advance (n + 1)) l (.scalar text false)
      | '"' => do
        let (text, n) ← readDouble r
        noted c (c.advance (n + 1)) l (.scalar text false)
      | _ =>
        if ch == '-' && marked then after (l.item c)
        else if ch == '?' && (l.inFlow || marked) then after (l.explicitKey c)
        else if ch == ':' && (l.inFlow || marked) then after (l.entryValue c)
        else if (ch == '|' || ch == '>') && !l.inFlow then do
          let l ← l.dropKey
          let (text, n) ← readBlock (ch == '|') l.indent r
          return (c.advance (n + 1), (l.emit (.scalar text false)).withKey)
        else if startsPlain l.inFlow c.rest then do
          let l ← l.noteKey c
          let p ← readPlain l.inFlow (l.indent + 1) c.rest
          return (c.advance p.length,
            { l.emit (.scalar p.text true) with keyAllowed := p.endsLine })
        else none

/-- Takes all tokens from a place on, of which there may be only so many. -/
def Layout.takeAll : (fuel : Nat) → Cursor → Layout → Option (List Token)
  | 0, _, _ => none
  | fuel + 1, c, l => do
    let (n, keyAllowed) := gapBefore l.inFlow ⟨l.keyAllowed, c.column = 0, false⟩ c.rest
    let c := c.advance n
    let l ← { l with keyAllowed }.refreshKeys c
    let l := l.closeBlocks c.column
    if c.rest.isEmpty then
      let l ← (l.closeBlocks (-1)).dropKey
      return l.tokens.reverse
    else
      let (c, l) ← l.take c
      takeAll fuel c l

/-- The tokens of a text. A token takes at least one character. -/
def Token.ofText? (text : String) : Option (List Token) :=
  let cs := text.toList
  if cs.all isPrintable then
    Layout.takeAll (cs.length + 1) (Cursor.ofText (unifyBreaks cs)) {}
  else none

end ProofLedger.Yaml
