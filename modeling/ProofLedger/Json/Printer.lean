import ProofLedger.Json.Basic
import ProofLedger.Decimal.Shortest

/-!
# Writing JSON text

Two layouts: compact, without any blanks, and indented by two spaces a level with one item or
member a line. Empty arrays and objects are `[]` and `\x7b\x7d` in both.
-/

namespace ProofLedger.Json

/-- A hexadecimal digit in lower case. -/
def hexDigit (n : Nat) : Char := (Nat.digitChar n)

/-- How a character is written inside a string. -/
def escapeChar (c : Char) : List Char :=
  if c == '"' then ['\\', '"']
  else if c == '\\' then ['\\', '\\']
  else if c == '\n' then ['\\', 'n']
  else if c == '\r' then ['\\', 'r']
  else if c == '\t' then ['\\', 't']
  else if c == '\x08' then ['\\', 'b']
  else if c == '\x0c' then ['\\', 'f']
  else if c.val < 0x20 then
    ['\\', 'u', '0', '0', hexDigit (c.toNat / 16), hexDigit (c.toNat % 16)]
  else [c]

/-- A string with its quotes. -/
def quote (s : String) : String :=
  String.ofList ('"' :: s.toList.flatMap escapeChar ++ ['"'])

/-- The text of a value that holds no other values. -/
def scalarText : Json → String
  | null => "null"
  | bool b => if b then "true" else "false"
  | int n => toString n
  | float x => Decimal.json x
  | string s => quote s
  | array _ => ""
  | object _ => ""

mutual

/-- A value without blanks. -/
def compress : Json → String
  | array items => "[" ++ ",".intercalate (compressItems items) ++ "]"
  | object fields => "\x7b" ++ ",".intercalate (compressFields fields) ++ "\x7d"
  | v => scalarText v

/-- The texts of the items of an array. -/
def compressItems : List Json → List String
  | [] => []
  | v :: vs => compress v :: compressItems vs

/-- The texts of the members of an object. -/
def compressFields : List (String × Json) → List String
  | [] => []
  | (k, v) :: fs => (quote k ++ ":" ++ compress v) :: compressFields fs

end

/-- A new line at a level of indentation. -/
def newline (level : Nat) : String := "\n" ++ String.ofList (List.replicate (2 * level) ' ')

mutual

/-- A value laid out in lines, its own closing bracket at the given level. -/
def prettyAt (level : Nat) : Json → String
  | array [] => "[]"
  | array items =>
    "[" ++ newline (level + 1) ++
      ("," ++ newline (level + 1)).intercalate (prettyItems (level + 1) items) ++
      newline level ++ "]"
  | object [] => "\x7b\x7d"
  | object fields =>
    "\x7b" ++ newline (level + 1) ++
      ("," ++ newline (level + 1)).intercalate (prettyFields (level + 1) fields) ++
      newline level ++ "\x7d"
  | v => scalarText v

/-- The texts of the items of an array, laid out at a level. -/
def prettyItems (level : Nat) : List Json → List String
  | [] => []
  | v :: vs => prettyAt level v :: prettyItems level vs

/-- The texts of the members of an object, laid out at a level. -/
def prettyFields (level : Nat) : List (String × Json) → List String
  | [] => []
  | (k, v) :: fs => (quote k ++ ": " ++ prettyAt level v) :: prettyFields level fs

end

/-- A value laid out in lines. -/
def pretty (v : Json) : String := prettyAt 0 v

end ProofLedger.Json
