/-!
# Blank characters, trimming and words

Blank means the Unicode property `White_Space`. All texts are handled as lists of
characters; the `String` forms at the end of the module are the same functions at the edge.
-/

namespace ProofLedger.Text

/-- The characters with the property `White_Space`. -/
def isBlank (c : Char) : Bool :=
  let n := c.val.toNat
  (9 ≤ n && n ≤ 13) || n == 0x20 || n == 0x85 || n == 0xA0 || n == 0x1680 ||
    (0x2000 ≤ n && n ≤ 0x200A) || n == 0x2028 || n == 0x2029 || n == 0x202F ||
    n == 0x205F || n == 0x3000

/-- A text without its leading blanks. -/
def trimStart (cs : List Char) : List Char := cs.dropWhile isBlank

/-- A text without its trailing characters of a class. -/
def dropEnd (p : Char → Bool) (cs : List Char) : List Char :=
  (cs.reverse.dropWhile p).reverse

/-- A text without leading and trailing blanks. -/
def trimChars (cs : List Char) : List Char := dropEnd isBlank (trimStart cs)

/-- The maximal runs of characters that are no separators, in order. -/
def runs (sep : Char → Bool) : List Char → List (List Char)
  | [] => []
  | c :: r =>
    if sep c then runs sep r
    else match r with
      | [] => [[c]]
      | d :: _ =>
        if sep d then [c] :: runs sep r
        else match runs sep r with
          | [] => [[c]]
          | w :: ws => (c :: w) :: ws

/-- The blank-separated words of a text. -/
def words (cs : List Char) : List (List Char) := runs isBlank cs

/-- Pieces with a separator between neighbours. -/
def joinWith (sep : List Char) : List (List Char) → List Char
  | [] => []
  | [w] => w
  | w :: ws => w ++ sep ++ joinWith sep ws

/-- Every run of blanks becomes one space, and the ends are trimmed. -/
def collapse (cs : List Char) : List Char := joinWith [' '] (words cs)

/-- Whether a text holds nothing but blanks. -/
def isBlankText (s : String) : Bool := s.toList.all isBlank

/-- A string without leading and trailing blanks. -/
def trim (s : String) : String := String.ofList (trimChars s.toList)

/-- A string with its blanks collapsed. -/
def collapseBlanks (s : String) : String := String.ofList (collapse s.toList)

end ProofLedger.Text
