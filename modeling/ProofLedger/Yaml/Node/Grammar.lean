import ProofLedger.Yaml.Node
import ProofLedger.Yaml.Token

/-!
# From tokens to nodes

The grammar of documents. Keys and values may be left out and are then empty; so is an anchored or
tagged node. In a list an entry may be a mapping with a single entry. A reference has to follow
its anchor.
-/

namespace ProofLedger.Yaml

/-- What is left of the tokens, with what was declared before them. -/
structure Upcoming where
  tokens : List Token
  /-- tag handles with what they stand for -/
  handles : List (List Char × List Char) := []
  /-- anchors with their numbers -/
  anchors : List (List Char × Nat) := []

/-- Reads nodes off the tokens. -/
abbrev Grammar := StateT Upcoming Option

namespace Grammar

/-- The next token. -/
def peek : Grammar (Option Token) := do return (← get).tokens.head?

/-- Drops the next token. -/
def skip : Grammar Unit := modify fun u => { u with tokens := u.tokens.drop 1 }

/-- Whether the next token is one of some. -/
def atAny (ts : List Token) : Grammar Bool := do
  return ((← peek).map ts.contains).getD false

/-- Drops the next token if it is a given one. -/
def skipIf (t : Token) : Grammar Bool := do
  if ← atAny [t] then
    skip
    return true
  else return false

/-- Drops a token that has to come next. -/
def expect (t : Token) : Grammar Unit := do
  if !(← skipIf t) then failure

-- ── Anchors and tags ──────────────────────────────────────────────────────────

/-- Declares an anchor. Its number is the number of names that were declared before. -/
def declare (name : List Char) : Grammar Nat := do
  let u ← get
  let number := u.anchors.length
  set { u with anchors := (name, number) :: u.anchors.filter fun a => a.1 != name }
  return number

/-- The bytes of a tag in full. -/
def fullTag (handle suffix : List Char) : Grammar (List Char) := do
  if handle.isEmpty then return suffix
  else
    match (← get).handles.lookup handle with
    | some meaning => return meaning ++ suffix
    | none => failure

/-- An anchor, if one comes next. -/
def anchor : Grammar (Option Nat) := do
  match ← peek with
  | some (.anchor name) =>
    skip
    return some (← declare name)
  | _ => return none

/-- The bytes of a tag, if one comes next. -/
def tag : Grammar (Option (List Char)) := do
  match ← peek with
  | some (.tag handle suffix) =>
    skip
    return some (← fullTag handle suffix)
  | _ => return none

/-- An anchor and a tag in any order; each may be left out. -/
def labels : Grammar (Option Nat × Option (List Char)) := do
  match ← anchor with
  | some a => return (some a, ← tag)
  | none =>
    let t ← tag
    return (← anchor, t)

-- ── Nodes ─────────────────────────────────────────────────────────────────────

/-- The tokens before which a key or value of a block mapping is empty. -/
def blockMarks : List Token := [.key, .value, .blockEnd]

/-- The tokens before which a value of a flow mapping is empty. -/
def flowMappingMarks : List Token := [.flowEntry, .flowMappingEnd]

/-- The tokens before which a value in a list entry is empty. -/
def flowSequenceMarks : List Token := [.flowEntry, .flowSequenceEnd]

mutual

/-- A node. Block collections are allowed only in blocks, and list items without an indentation of
    their own only as keys and values. -/
def node (fuel : Nat) (inBlock unindented : Bool) : Grammar Node :=
  match fuel with
  | 0 => failure
  | fuel + 1 => do
    match ← peek with
    | some (.alias name) =>
      skip
      match (← get).anchors.lookup name with
      | some number => return .reference number
      | none => failure
    | _ =>
      let (anchor, written) ← labels
      let tag := written.bind Tag.ofBytes?
      match ← peek with
      | some (.scalar text plain) =>
        skip
        return .scalar anchor tag text plain
      | some .flowSequenceStart =>
        skip
        return .sequence anchor tag (← flowItems fuel true)
      | some .flowMappingStart =>
        skip
        return .mapping anchor tag (← flowEntries fuel true)
      | t =>
        if unindented && t == some .blockEntry then
          return .sequence anchor tag (← unindentedItems fuel)
        else if inBlock && t == some .blockSequenceStart then
          skip
          return .sequence anchor tag (← blockItems fuel)
        else if inBlock && t == some .blockMappingStart then
          skip
          return .mapping anchor tag (← blockEntries fuel)
        else if anchor.isSome || written.isSome then return .scalar anchor tag [] true
        else failure

/-- A node, or the empty one before some tokens. -/
def nodeUnless (fuel : Nat) (marks : List Token) (inBlock unindented : Bool) : Grammar Node :=
  match fuel with
  | 0 => failure
  | fuel + 1 => do
    if ← atAny marks then return .empty
    else node fuel inBlock unindented

/-- The items of a list in a block. -/
def blockItems (fuel : Nat) : Grammar (List Node) :=
  match fuel with
  | 0 => failure
  | fuel + 1 => do
    if ← skipIf .blockEntry then
      let item ← nodeUnless fuel [.blockEntry, .blockEnd] true false
      return item :: (← blockItems fuel)
    else
      expect .blockEnd
      return []

/-- The items of a list that is not indented. -/
def unindentedItems (fuel : Nat) : Grammar (List Node) :=
  match fuel with
  | 0 => failure
  | fuel + 1 => do
    if ← skipIf .blockEntry then
      let item ← nodeUnless fuel (.blockEntry :: blockMarks) true false
      return item :: (← unindentedItems fuel)
    else return []

/-- The entries of a mapping in a block. -/
def blockEntries (fuel : Nat) : Grammar (List (Node × Node)) :=
  match fuel with
  | 0 => failure
  | fuel + 1 => do
    if ← skipIf .key then
      let key ← nodeUnless fuel blockMarks true true
      let value ← if ← skipIf .value then nodeUnless fuel blockMarks true true else pure .empty
      return (key, value) :: (← blockEntries fuel)
    else
      expect .blockEnd
      return []

/-- The items of a list in brackets. -/
def flowItems (fuel : Nat) (first : Bool) : Grammar (List Node) :=
  match fuel with
  | 0 => failure
  | fuel + 1 => do
    if ← skipIf .flowSequenceEnd then return []
    else
      if !first then expect .flowEntry
      if ← skipIf .flowSequenceEnd then return []
      else
        let item ← if ← skipIf .key then singleEntry fuel else node fuel false false
        return item :: (← flowItems fuel false)

/-- A mapping with a single entry as the item of a list. A token that shows that the key is empty
    is used up. -/
def singleEntry (fuel : Nat) : Grammar Node :=
  match fuel with
  | 0 => failure
  | fuel + 1 => do
    let key ←
      if ← atAny (.value :: flowSequenceMarks) then
        skip
        pure .empty
      else node fuel false false
    let value ←
      if ← skipIf .value then nodeUnless fuel flowSequenceMarks false false else pure .empty
    return .mapping none none [(key, value)]

/-- The entries of a mapping in braces. -/
def flowEntries (fuel : Nat) (first : Bool) : Grammar (List (Node × Node)) :=
  match fuel with
  | 0 => failure
  | fuel + 1 => do
    if ← skipIf .flowMappingEnd then return []
    else
      if !first then expect .flowEntry
      if ← skipIf .flowMappingEnd then return []
      else
        let entry ←
          if ← skipIf .key then
            let key ← nodeUnless fuel (.value :: flowMappingMarks) false false
            let value ←
              if ← skipIf .value then nodeUnless fuel flowMappingMarks false false
              else pure .empty
            pure (key, value)
          else
            let key ← node fuel false false
            pure (key, .empty)
        return entry :: (← flowEntries fuel false)

end

-- ── Documents ─────────────────────────────────────────────────────────────────

/-- The tag handles that need no declaration. -/
def standardHandles : List (List Char × List Char) :=
  [("!".toList, "!".toList), ("!!".toList, "tag:yaml.org,2002:".toList)]

/-- The directives of a document: the version at most once, and each tag handle at most once. -/
def directives (versioned : Bool) (handles : List (List Char × List Char)) :
    List Token → Option (List (List Char × List Char) × List Token)
  | .version major minor :: r =>
    if versioned || major != 1 || minor != 1 && minor != 2 then none
    else directives true handles r
  | .tagHandle handle meaning :: r =>
    if (handles.lookup handle).isSome then none
    else directives versioned ((handle, meaning) :: handles) r
  | ts => some (handles, ts)

/-- Whether a token stands between documents. -/
def isBetween : Token → Bool
  | .version _ _ | .tagHandle _ _ | .documentStart | .documentEnd => true
  | _ => false

/-- The fuel that is enough for some tokens. -/
def fuelFor (ts : List Token) : Nat := 4 * ts.length + 4

/-- A document. After its directives it has to begin with a mark. -/
def document : Grammar Node := do
  let all := (← get).tokens
  let (handles, ts) ← liftM (directives false [] all)
  set ({ tokens := ts, handles := handles ++ standardHandles } : Upcoming)
  if ← skipIf .documentStart then
    let bare := ((← peek).map isBetween).getD true
    if bare then return .empty else node (fuelFor ts) true false
  else if ts.length = all.length then node (fuelFor ts) true false
  else failure

end Grammar

/-- The only document of some tokens, if there is one. -/
def Node.ofTokens? (ts : List Token) : Option (Option Node) :=
  if ts.isEmpty then some none
  else do
    let (n, u) ← Grammar.document.run { tokens := ts }
    if u.tokens.all (· == .documentEnd) then return some n else none

end ProofLedger.Yaml
