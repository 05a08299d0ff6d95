import ProofLedger.Json.Number

/-!
# Reading JSON text

The reader accepts one value with blanks around it. Strings may hold neither control characters
nor lone surrogates, and arrays and objects nest at most 127 deep.
-/

namespace ProofLedger.Json

/-- Blanks between the tokens of a JSON text. -/
def isSpace (c : Char) : Bool := c == ' ' || c == '\n' || c == '\t' || c == '\r'

/-- A text without its leading blanks. -/
def skipSpace (cs : List Char) : List Char := cs.dropWhile isSpace

/-- The value of a hexadecimal digit. -/
def hexValue (c : Char) : Option Nat :=
  if c.isDigit then some (c.toNat - '0'.toNat)
  else if 'a' ≤ c && c ≤ 'f' then some (c.toNat - 'a'.toNat + 10)
  else if 'A' ≤ c && c ≤ 'F' then some (c.toNat - 'A'.toNat + 10)
  else none

/-- Four hexadecimal digits. -/
def hexUnit (a b c d : Char) : Option Nat := do
  return ((← hexValue a) * 16 + (← hexValue b)) * 256 + ((← hexValue c) * 16 + (← hexValue d))

/-- The character of an escape letter other than `u`. -/
def escapedChar : Char → Option Char
  | '"' => some '"'
  | '\\' => some '\\'
  | '/' => some '/'
  | 'b' => some '\x08'
  | 'f' => some '\x0c'
  | 'n' => some '\n'
  | 'r' => some '\r'
  | 't' => some '\t'
  | _ => none

/-- The rest of a string after its opening quote, with the text after the closing quote. -/
def readChars : List Char → Option (List Char × List Char)
  | [] => none
  | '"' :: r => some ([], r)
  | '\\' :: 'u' :: a :: b :: c :: d :: r =>
    match hexUnit a b c d with
    | none => none
    | some high =>
      if 0xDC00 ≤ high && high ≤ 0xDFFF then none
      else if 0xD800 ≤ high && high ≤ 0xDBFF then
        match r with
        | '\\' :: 'u' :: a' :: b' :: c' :: d' :: r' =>
          match hexUnit a' b' c' d' with
          | none => none
          | some low =>
            if 0xDC00 ≤ low && low ≤ 0xDFFF then
              (readChars r').map fun (cs, rest) =>
                (Char.ofNat (0x10000 + (high - 0xD800) * 0x400 + (low - 0xDC00)) :: cs, rest)
            else none
        | _ => none
      else (readChars r).map fun (cs, rest) => (Char.ofNat high :: cs, rest)
  | '\\' :: e :: r =>
    match escapedChar e with
    | none => none
    | some c => (readChars r).map fun (cs, rest) => (c :: cs, rest)
  | c :: r =>
    if c.val < 0x20 || c == '\\' then none
    else (readChars r).map fun (cs, rest) => (c :: cs, rest)

/-- A text without a given word at its start. -/
def expect (word : List Char) (cs : List Char) : Option (List Char) :=
  if word.isPrefixOf cs then some (cs.drop word.length) else none

mutual

/-- Reads a value. `fuel` bounds the number of calls and `depth` counts the nesting left. -/
def readValue (fuel depth : Nat) (cs : List Char) : Option (Json × List Char) :=
  match fuel with
  | 0 => none
  | fuel + 1 =>
    match skipSpace cs with
    | 'n' :: r => (expect ['u', 'l', 'l'] r).map (null, ·)
    | 't' :: r => (expect ['r', 'u', 'e'] r).map (bool true, ·)
    | 'f' :: r => (expect ['a', 'l', 's', 'e'] r).map (bool false, ·)
    | '"' :: r => (readChars r).map fun (s, rest) => (string (String.ofList s), rest)
    | '[' :: r =>
      if depth ≤ 1 then none
      else match skipSpace r with
        | ']' :: rest => some (array [], rest)
        | _ => (readItems fuel (depth - 1) r).map fun (vs, rest) => (array vs, rest)
    | '{' :: r =>
      if depth ≤ 1 then none
      else match skipSpace r with
        | '}' :: rest => some (object [], rest)
        | _ => (readMembers fuel (depth - 1) r).map fun (fs, rest) => (ofFields fs, rest)
    | cs' => readNumber cs'

/-- Reads the items of an array up to its closing bracket. -/
def readItems (fuel depth : Nat) (cs : List Char) : Option (List Json × List Char) :=
  match fuel with
  | 0 => none
  | fuel + 1 =>
    match readValue fuel depth cs with
    | none => none
    | some (v, r) =>
      match skipSpace r with
      | ',' :: r' => (readItems fuel depth r').map fun (vs, rest) => (v :: vs, rest)
      | ']' :: rest => some ([v], rest)
      | _ => none

/-- Reads the members of an object up to its closing brace. -/
def readMembers (fuel depth : Nat) (cs : List Char) :
    Option (List (String × Json) × List Char) :=
  match fuel with
  | 0 => none
  | fuel + 1 =>
    match skipSpace cs with
    | '"' :: r =>
      match readChars r with
      | none => none
      | some (key, r) =>
        match skipSpace r with
        | ':' :: r =>
          match readValue fuel depth r with
          | none => none
          | some (v, r) =>
            match skipSpace r with
            | ',' :: r' =>
              (readMembers fuel depth r').map fun (fs, rest) =>
                ((String.ofList key, v) :: fs, rest)
            | '}' :: rest => some ([(String.ofList key, v)], rest)
            | _ => none
        | _ => none
    | _ => none

end

/-- The value of a whole text. -/
def parse? (text : String) : Option Json :=
  let cs := text.toList
  match readValue (3 * cs.length + 3) 128 cs with
  | some (v, rest) => if (skipSpace rest).isEmpty then some v else none
  | none => none

end ProofLedger.Json
