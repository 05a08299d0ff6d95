import ProofLedger.Yaml.Character
import ProofLedger.Yaml.Scalar
import ProofLedger.Yaml.Token

/-!
# Anchors, tags and directives

The tokens that say something about the node or the document after them. The readers take the
text after the opening mark, unless they say otherwise.
-/

namespace ProofLedger.Yaml

/-- Whether the name of an anchor may end here. -/
def atNameEnd : List Char → Bool
  | [] => true
  | c :: _ => isGap c || ['?', ':', ',', ']', '}', '%', '@', '\x60'].contains c

/-- The name of an anchor. -/
def readAnchor (cs : List Char) : Option (List Char × List Char) :=
  let name := cs.takeWhile isNameChar
  let rest := cs.dropWhile isNameChar
  if name.isEmpty || !atNameEnd rest then none else some (name, rest)

-- ── Tags ──────────────────────────────────────────────────────────────────────

/-- The handle of a tag with its marks. A name without a closing mark is a handle only before the
    rest of a tag. -/
def readHandle (closed : Bool) (cs : List Char) : Option (List Char × List Char) :=
  match cs with
  | '!' :: r =>
    let name := r.takeWhile isNameChar
    match r.dropWhile isNameChar with
    | '!' :: rest => some ('!' :: name ++ ['!'], rest)
    | rest => if closed && !name.isEmpty then none else some ('!' :: name, rest)
  | _ => none

/-- A character of a tag; the wide class has also the marks of lists. -/
def isTagChar (wide : Bool) (c : Char) : Bool :=
  isNameChar c || [';', '/', '?', ':', '@', '&', '=', '+', '$', '.', '!', '~', '*', '\'', '(',
    ')'].contains c || wide && [',', '[', ']'].contains c

/-- The number of bytes that follow the first byte of a character. -/
def bytesAfter? (first : Nat) : Option Nat :=
  if first < 0x80 then some 0
  else if 0xC0 ≤ first && first < 0xE0 then some 1
  else if 0xE0 ≤ first && first < 0xF0 then some 2
  else if 0xF0 ≤ first && first < 0xF8 then some 3
  else none

/-- The characters of a tag. Bytes may be written as two digits after a percent sign, but must
    make up whole characters, of which `pending` bytes are missing; each is kept by its number. -/
def readTagChars (wide : Bool) : (pending : Nat) → List Char → Option (List Char × List Char)
  | pending, '%' :: a :: b :: r => do
    let byte ← natIn? 16 [a, b]
    let left ←
      match pending with
      | 0 => bytesAfter? byte
      | n + 1 => if 0x80 ≤ byte && byte < 0xC0 then some n else none
    let (s, rest) ← readTagChars wide left r
    return (Char.ofNat byte :: s, rest)
  | 0, c :: r =>
    if c == '%' then none
    else if isTagChar wide c then (readTagChars wide 0 r).map fun (s, rest) => (c :: s, rest)
    else some ([], c :: r)
  | 0, [] => some ([], [])
  | _ + 1, _ => none

/-- The characters of a tag, of which there must be one. -/
def readSomeTagChars (wide : Bool) (cs : List Char) : Option (List Char × List Char) :=
  (readTagChars wide 0 cs).filter fun r => !r.1.isEmpty

/-- The bytes of a tag count up to the first that is zero. -/
def beforeZero (bytes : List Char) : List Char := bytes.takeWhile fun b => b != '\x00'

/-- A tag with its mark: `!<tag>`, `!handle!rest`, `!rest`, or the mark alone. -/
def readTag (inFlow : Bool) (cs : List Char) : Option (Token × List Char) := do
  let (tag, rest) ←
    match cs with
    | '!' :: '<' :: r => do
      match ← readSomeTagChars true r with
      | (suffix, '>' :: rest) => pure (Token.tag [] (beforeZero suffix), rest)
      | _ => none
    | _ => do
      let (handle, r) ← readHandle false cs
      if 1 < handle.length && handle.getLast? == some '!' then
        let (suffix, rest) ← readSomeTagChars false r
        pure (Token.tag handle (beforeZero suffix), rest)
      else
        let (more, rest) ← readTagChars false 0 r
        let suffix := beforeZero (handle.drop 1 ++ more)
        pure (if suffix.isEmpty then Token.tag [] ['!'] else Token.tag ['!'] suffix, rest)
  if atGap rest || inFlow && rest.head? == some ',' then return (tag, rest) else none

-- ── Directives ────────────────────────────────────────────────────────────────

/-- A number of a version, of nine digits at most. -/
def readVersionNumber (cs : List Char) : Option (Nat × List Char) :=
  let digits := cs.takeWhile Char.isDigit
  if digits.length ≤ 9 then (natIn? 10 digits).map fun n => (n, cs.dropWhile Char.isDigit)
  else none

/-- What a directive with a given name says. -/
def readDirectiveValue (name cs : List Char) : Option (Token × List Char) :=
  if name == "YAML".toList then do
    match ← readVersionNumber (cs.dropWhile isBlank) with
    | (major, '.' :: r) =>
      let (minor, rest) ← readVersionNumber r
      return (.version major minor, rest)
    | _ => none
  else if name == "TAG".toList then do
    let (handle, r) ← readHandle true (cs.dropWhile isBlank)
    if !(r.head?.map isBlank).getD false then none
    else
      let (meaning, rest) ← readSomeTagChars true (r.dropWhile isBlank)
      if atGap rest then return (.tagHandle handle (beforeZero meaning), rest) else none
  else none

/-- A directive, with the text from the next line on. -/
def readDirective (cs : List Char) : Option (Token × List Char) := do
  let name := cs.takeWhile isNameChar
  let r := cs.dropWhile isNameChar
  if name.isEmpty || !atGap r then none
  else
    let (token, rest) ← readDirectiveValue name r
    let rest := rest.dropWhile isBlank
    let rest := if rest.head? = some '#' then rest.dropWhile fun c => !isBreak c else rest
    if atBreak rest then return (token, rest.drop 1) else none

end ProofLedger.Yaml
