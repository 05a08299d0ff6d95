import ProofLedger.Decimal.Read
import ProofLedger.Json.Overlay
import ProofLedger.Text.Blank

/-!
# Settings in the environment

A variable whose name begins with the program's prefix, in any case, names a setting: two
underscores separate its levels, and its letters are lowered. The value is a truth value, a
number, a text in quotes, a list in brackets or a map in braces if it reads as one of them as a
whole, and otherwise the text itself.
-/

namespace ProofLedger.Environment

-- ── Names ─────────────────────────────────────────────────────────────────────

/-- The prefix of the variables that name settings. -/
def mark : String := "PROOFSYNC_"

/-- A letter of ASCII in lower case. -/
def lower (s : List Char) : List Char := s.map Char.toLower

/-- The rest of a name after the prefix. -/
def afterMark? (name : List Char) : Option (List Char) :=
  let n := mark.length
  if lower (name.take n) = lower mark.toList then some (name.drop n) else none

/-- A name with a point for every two underscores. -/
def pointed : List Char → List Char
  | '_' :: '_' :: r => '.' :: pointed r
  | c :: r => c :: pointed r
  | [] => []

/-- The levels of the setting that a variable names. Blanks around the name do not count. -/
def levels? (name : String) : Option (List String) := do
  let rest ← afterMark? (Text.trimChars name.toList)
  let parts := (lower (Text.trimChars (pointed rest))).splitOn '.'
  if parts.any List.isEmpty then none else return parts.map String.ofList

-- ── Values ────────────────────────────────────────────────────────────────────

/-- A blank of ASCII. -/
def isSpace (c : Char) : Bool :=
  c == ' ' || c == '\t' || c == '\n' || c == '\x0c' || c == '\r'

/-- Whether a character ends a word inside a list or a map. -/
def isSeparator (c : Char) : Bool := [',', '{', '}', '[', ']'].contains c

/-- Whether a character may stand in a key without quotes. -/
def isKeyChar (c : Char) : Bool := c.isAlphanum || c == '_' || c == '-'

/-- A number of hexadecimal digits. -/
def hex? (cs : List Char) : Option Nat :=
  cs.foldlM (fun n c =>
    if c.isDigit then some (n * 16 + (c.toNat - '0'.toNat))
    else if 'a' ≤ c.toLower ∧ c.toLower ≤ 'f' then
      some (n * 16 + (c.toLower.toNat - 'a'.toNat + 10))
    else none) 0

/-- The characters that a text has in front of its first escape. -/
def beforeEscape (cs : List Char) : List Char := cs.takeWhile fun c => c != '"' && c != '\\'

/-- The beginning of a text that fits a number of bytes. -/
def fitting (bytes : Nat) : List Char → List Char
  | [] => []
  | c :: r => if c.utf8Size ≤ bytes then c :: fitting (bytes - c.utf8Size) r else []

/-- The rest of a text in double quotes, and what follows it. -/
def readEscaped : Nat → List Char → Option (List Char × List Char)
  | 0, _ => none
  | fuel + 1, cs =>
    match cs with
    | '"' :: r => some ([], r)
    | '\\' :: c :: r =>
      match [('"', '"'), ('\\', '\\'), ('b', '\x08'), ('f', '\x0c'), ('n', '\n'), ('r', '\r'),
          ('t', '\t')].lookup c, [('u', 4), ('U', 8)].lookup c with
      | some e, _ => (readEscaped fuel r).map fun (s, rest) => (e :: s, rest)
      | none, some n => do
        let code ← hex? (r.take n)
        if (r.take n).length < n || !code.isValidChar then none
        else (readEscaped fuel (r.drop n)).map fun (s, rest) => (Char.ofNat code :: s, rest)
      | none, none => none
    | c :: r =>
      if c == '\t' || (' ' ≤ c && c != '\x7f') then
        (readEscaped fuel r).map fun (s, rest) => (c :: s, rest)
      else none
    | [] => none

/-- The rest of a text in double quotes, and what follows it. In front of the first escape only so
    many bytes count as there are characters. -/
def readQuoted (cs : List Char) : Option (List Char × List Char) := do
  let plain := beforeEscape cs
  let (s, rest) ← readEscaped (cs.length + 1) cs
  if (cs.drop plain.length).head? = some '\\' then
    return (fitting plain.length plain ++ s.drop plain.length, rest)
  else return (s, rest)

/-- What a word means. -/
def word (cs : List Char) : Json :=
  let real : Option Float := if cs.contains '.' then Decimal.real? cs else none
  let s := String.ofList cs
  match real, Decimal.nat64? s, Decimal.int64? s with
  | some x, _, _ => .float x
  | none, some n, _ => .int n
  | none, none, some n => .int n
  | none, none, none => .string s

/-- The text after a word, if the text begins with it. -/
def after? (start cs : List Char) : Option (List Char) :=
  if cs.take start.length = start then some (cs.drop start.length) else none

/-- A key with its text after it. -/
def readKey? (cs : List Char) : Option (List Char × List Char) :=
  match cs with
  | '"' :: r => readQuoted r
  | _ =>
    let key := cs.takeWhile isKeyChar
    if key.isEmpty then none else some (key, cs.dropWhile isKeyChar)

mutual

/-- A value with the blanks around it. -/
def readValue (fuel : Nat) (cs : List Char) : Option (Json × List Char) :=
  match fuel with
  | 0 => none
  | fuel + 1 => do
    let text := cs.dropWhile isSpace
    let (v, rest) ←
      match after? "true".toList text, after? "false".toList text, text with
      | some r, _, _ => some (Json.bool true, r)
      | none, some r, _ => some (Json.bool false, r)
      | none, none, '[' :: r => (readItems fuel r).map fun (vs, rest) => (.array vs, rest)
      | none, none, '{' :: r => (readFields fuel r).map fun (fs, rest) => (.ofFields fs, rest)
      | none, none, '"' :: r =>
        (readQuoted r).map fun (s, rest) => (.string (String.ofList s), rest)
      | none, none, '\'' :: c :: '\'' :: r => some (Json.string (String.ofList [c]), r)
      | none, none, '\'' :: _ => none
      | none, none, r =>
        let w := r.takeWhile fun c => !isSeparator c
        some (word (Text.trimChars w), r.drop w.length)
    return (v, rest.dropWhile isSpace)

/-- The items of a list, up to its bracket. -/
def readItems (fuel : Nat) (cs : List Char) : Option (List Json × List Char) :=
  match fuel with
  | 0 => none
  | fuel + 1 =>
    match cs with
    | ']' :: r => some ([], r)
    | _ => do
      let (v, rest) ← readValue fuel cs
      match rest with
      | ',' :: r =>
        let (vs, end_) ← readItems fuel r
        return (v :: vs, end_)
      | ']' :: r => return ([v], r)
      | _ => none

/-- The fields of a map, up to its brace. -/
def readFields (fuel : Nat) (cs : List Char) : Option (List (String × Json) × List Char) :=
  match fuel with
  | 0 => none
  | fuel + 1 =>
    match cs with
    | '}' :: r => some ([], r)
    | _ => do
      let (key, r) ← readKey? (cs.dropWhile isSpace)
      let r ← after? ['='] (r.dropWhile isSpace)
      let (v, rest) ← readValue fuel r
      let field := (String.ofList key, v)
      match rest with
      | ',' :: r =>
        let (fields, end_) ← readFields fuel r
        return (field :: fields, end_)
      | '}' :: r => return ([field], r)
      | _ => none

end

/-- What the value of a variable means. -/
def value (text : String) : Json :=
  match readValue (2 * text.length + 2) text.toList with
  | some (v, []) => v
  | _ => .string text

-- ── The layer ─────────────────────────────────────────────────────────────────

/-- The settings that the variables of an environment name, later ones laid over earlier ones. -/
def layer (environment : List (String × String)) : Json :=
  environment.foldl (fun acc (name, text) =>
    match levels? name with
    | some levels => acc.overlay ((value text).nest levels)
    | none => acc) .emptyObject

end ProofLedger.Environment
