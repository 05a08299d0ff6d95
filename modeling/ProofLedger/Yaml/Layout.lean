import ProofLedger.Yaml.Cursor
import ProofLedger.Yaml.Token

/-!
# Layout

Indentation opens and closes block collections, and a colon makes a key of what stands before
it. The layout of what was read so far holds the open block collections by their columns, and for
each open flow collection, and around them, where a key may have begun. A key lies on one line
and is at most 1024 characters long. Where only a key may stand, a lost chance of one is an error.
-/

namespace ProofLedger.Yaml

/-- A place where a key may have begun. -/
structure KeyStart where
  /-- whether nothing but a key may stand there -/
  required : Bool
  /-- the number of tokens before it -/
  tokens : Nat
  index : Nat
  line : Nat
  column : Nat

/-- The layout of what was read so far, with its tokens. -/
structure Layout where
  /-- the tokens, the last in front -/
  tokens : List Token := []
  /-- the number of tokens -/
  count : Nat := 0
  /-- the column of the innermost open block collection; -1 if there is none -/
  indent : Int := -1
  outerIndents : List Int := []
  /-- whether a key may begin at the next token -/
  keyAllowed : Bool := true
  /-- where a key may have begun inside the innermost open flow collection -/
  keyStart : Option KeyStart := none
  outerKeyStarts : List (Option KeyStart) := []

namespace Layout

/-- Whether a flow collection is open. -/
def inFlow (l : Layout) : Bool := !l.outerKeyStarts.isEmpty

/-- The layout with one more token. -/
def emit (l : Layout) (t : Token) : Layout :=
  { l with tokens := t :: l.tokens, count := l.count + 1 }

/-- The layout with a token inserted after a number of tokens. -/
def insert (l : Layout) (position : Nat) (t : Token) : Layout :=
  let later := l.count - position
  { l with tokens := l.tokens.take later ++ t :: l.tokens.drop later, count := l.count + 1 }

-- ── Keys ──────────────────────────────────────────────────────────────────────

/-- Whether a key that began at a place would be too long by now. -/
def isStale (c : Cursor) (k : KeyStart) : Bool := k.line < c.line || k.index + 1024 < c.index

/-- What is left of the chance of a key. -/
def refresh (c : Cursor) : Option KeyStart → Option (Option KeyStart)
  | none => some none
  | some k => if !isStale c k then some (some k) else if k.required then none else some none

/-- The layout without the chances of keys that would be too long. -/
def refreshKeys (c : Cursor) (l : Layout) : Option Layout := do
  return { l with
    keyStart := ← refresh c l.keyStart
    outerKeyStarts := ← l.outerKeyStarts.mapM (refresh c) }

/-- The layout without the innermost chance of a key. -/
def dropKey (l : Layout) : Option Layout :=
  if (l.keyStart.map KeyStart.required).getD false then none else some { l with keyStart := none }

/-- The layout with the chance of a key here, if one is allowed. -/
def noteKey (c : Cursor) (l : Layout) : Option Layout :=
  if !l.keyAllowed then some l
  else do
    let required := !l.inFlow && l.indent == (c.column : Int)
    let l ← l.dropKey
    return { l with keyStart := some ⟨required, l.count, c.index, c.line, c.column⟩ }

/-- The layout after a token that a key cannot follow. -/
def withoutKey (l : Layout) : Layout := { l with keyAllowed := false }

/-- The layout after a token that a key can follow. -/
def withKey (l : Layout) : Layout := { l with keyAllowed := true }

-- ── Block collections ─────────────────────────────────────────────────────────

/-- Whether a column opens a block collection. -/
def opens (l : Layout) (column : Nat) : Bool := !l.inFlow && decide (l.indent < (column : Int))

/-- The layout with a block collection opened at a column. -/
def indentTo (l : Layout) (column : Nat) : Layout :=
  { l with indent := column, outerIndents := l.indent :: l.outerIndents }

/-- The layout with a block collection opened at a column, if the column opens one. -/
def openBlock (l : Layout) (column : Nat) (opening : Token) : Layout :=
  if l.opens column then (l.indentTo column).emit opening else l

/-- The columns that are left when the blocks beyond a column are closed, and their number. -/
def unwind (column : Int) : Int → List Int → Nat × Int × List Int
  | indent, [] => (0, indent, [])
  | indent, outer :: rest =>
    if column < indent then
      let (n, left) := unwind column outer rest
      (n + 1, left)
    else (0, indent, outer :: rest)

/-- The layout with all block collections beyond a column closed. -/
def closeBlocks (l : Layout) (column : Int) : Layout :=
  if l.inFlow then l
  else
    let (n, indent, outerIndents) := unwind column l.indent l.outerIndents
    { l with
      tokens := List.replicate n .blockEnd ++ l.tokens
      count := l.count + n
      indent, outerIndents }

-- ── Flow collections ──────────────────────────────────────────────────────────

/-- The layout with a flow collection opened. -/
def openFlow (c : Cursor) (l : Layout) (opening : Token) : Option Layout := do
  let l ← l.noteKey c
  return ({ l with
    keyStart := none, outerKeyStarts := l.keyStart :: l.outerKeyStarts }.emit opening).withKey

/-- The layout with the innermost flow collection closed. -/
def closeFlow (l : Layout) (closing : Token) : Option Layout := do
  let l ← l.dropKey
  let l := match l.outerKeyStarts with
    | [] => l
    | k :: rest => { l with keyStart := k, outerKeyStarts := rest }
  return (l.emit closing).withoutKey

-- ── Entries ───────────────────────────────────────────────────────────────────

/-- The layout with the dash of a list item. -/
def item (c : Cursor) (l : Layout) : Option Layout :=
  if !l.inFlow && !l.keyAllowed then none
  else do
    let l ← (l.openBlock c.column .blockSequenceStart).dropKey
    return (l.emit .blockEntry).withKey

/-- The layout with the question mark of a key. -/
def explicitKey (c : Cursor) (l : Layout) : Option Layout :=
  if !l.inFlow && !l.keyAllowed then none
  else do
    let l ← (l.openBlock c.column .blockMappingStart).dropKey
    return { l.emit .key with keyAllowed := !l.inFlow }

/-- The layout with the colon of a value. What may have been a key before it becomes one. -/
def entryValue (c : Cursor) (l : Layout) : Option Layout :=
  match l.keyStart with
  | some k =>
    let keyed := l.insert k.tokens .key
    let l :=
      if l.opens k.column then (keyed.indentTo k.column).insert k.tokens .blockMappingStart
      else keyed
    some ({ l with keyStart := none }.emit .value).withoutKey
  | none =>
    if !l.inFlow && !l.keyAllowed then none
    else some { (l.openBlock c.column .blockMappingStart).emit .value with keyAllowed := !l.inFlow }

/-- The layout with a mark or directive of the document, which closes every block. -/
def betweenDocuments (l : Layout) (t : Token) : Option Layout := do
  let l ← (l.closeBlocks (-1)).dropKey
  return (l.emit t).withoutKey

end Layout

end ProofLedger.Yaml
