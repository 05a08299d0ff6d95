/-!
# Characters of a document

The classes of characters that a document is made of. A document is read with every line end as a
newline (`unifyBreaks`); the line and paragraph separators break lines as well, but stay what
they are.
-/

namespace ProofLedger.Yaml

/-- Whether a character may stand in a document. -/
def isPrintable (c : Char) : Bool :=
  let n := c.toNat
  n == 9 || n == 10 || n == 13 || n == 0x85 || (0x20 ≤ n && n ≤ 0x7E) ||
    (0xA0 ≤ n && n ≤ 0xD7FF) || (0xE000 ≤ n && n ≤ 0xFFFD) || 0x10000 ≤ n

/-- A text with a newline for every line end. -/
def unifyBreaks : List Char → List Char
  | [] => []
  | '\r' :: '\n' :: r => '\n' :: unifyBreaks r
  | '\r' :: r => '\n' :: unifyBreaks r
  | '\u0085' :: r => '\n' :: unifyBreaks r
  | c :: r => c :: unifyBreaks r

/-- A space or a tab. -/
def isBlank (c : Char) : Bool := c == ' ' || c == '\t'

/-- A character that ends a line. -/
def isBreak (c : Char) : Bool := c == '\n' || c == '\u2028' || c == '\u2029'

/-- A character between words. -/
def isGap (c : Char) : Bool := isBlank c || isBreak c

/-- Whether a word ends here. -/
def atGap : List Char → Bool
  | [] => true
  | c :: _ => isGap c

/-- Whether a line ends here. -/
def atBreak : List Char → Bool
  | [] => true
  | c :: _ => isBreak c

/-- A character of the names of anchors and tags. -/
def isNameChar (c : Char) : Bool := c.isAlphanum || c == '_' || c == '-'

/-- A mark of the flow collections. -/
def isFlowMark (c : Char) : Bool := [',', '[', ']', '{', '}'].contains c

/-- A character with a meaning of its own at the start of a token. -/
def isIndicator (c : Char) : Bool :=
  isFlowMark c ||
    ['-', '?', ':', '#', '&', '*', '!', '|', '>', '\'', '"', '%', '@', '\x60'].contains c

/-- Whether a word of three equal characters stands here. -/
def atTriple (c : Char) (cs : List Char) : Bool := cs.take 3 == [c, c, c] && atGap (cs.drop 3)

/-- Whether the mark of a document's start or end stands here. It is one only at the start of a
    line. -/
def atDocumentMark (cs : List Char) : Bool := atTriple '-' cs || atTriple '.' cs

/-- A gap inside a scalar, as it counts: without a line break it stays; a single newline is a
    space; of several breaks a newline in front is dropped. Blanks beside a break do not count. -/
def foldGap (gap : List Char) : List Char :=
  match gap.filter isBreak with
  | [] => gap
  | ['\n'] => [' ']
  | '\n' :: more => more
  | breaks => breaks

/-- The characters of a text after its last line break. -/
def lastLine (cs : List Char) : List Char := (cs.reverse.takeWhile fun c => !isBreak c).reverse

/-- What follows the characters of a class in front of a text is no longer than the text. -/
theorem length_dropWhile_le (p : Char → Bool) (cs : List Char) :
    (cs.dropWhile p).length ≤ cs.length :=
  (List.dropWhile_sublist p).length_le

/-- What follows the characters of a class in front of a text is shorter than the text, if there
    are such characters. -/
theorem length_dropWhile_lt {p : Char → Bool} {cs : List Char} (h : cs.takeWhile p ≠ []) :
    (cs.dropWhile p).length < cs.length := by
  have split := congrArg List.length (List.takeWhile_append_dropWhile (p := p) (l := cs))
  have pos := List.length_pos_iff.2 h
  rw [List.length_append] at split
  omega

end ProofLedger.Yaml
