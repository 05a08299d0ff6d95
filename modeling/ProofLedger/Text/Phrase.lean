import ProofLedger.Text.Blank
import ProofLedger.Text.WordChar

/-!
# Phrases

A phrase is a sequence of pieces to be found somewhere in a text: literal words, alternatives,
word edges, and gaps. Matching is by lists of successes: a piece takes a spot of the text to all
spots where it may end. Case is ignored by folding the text first; phrases are written in small
letters.
-/

namespace ProofLedger.Text

/-- A position in a text: the character before it, if any, and the text after it. -/
structure Spot where
  before : Option Char
  after : List Char
  deriving DecidableEq, Repr

/-- A piece of a phrase. -/
inductive Piece where
  /-- this text -/
  | word (text : String)
  /-- this text or nothing -/
  | maybe (text : String)
  /-- one of these texts -/
  | oneOf (texts : List String)
  /-- an edge of a word -/
  | edge
  /-- any number of blanks -/
  | blanks
  /-- any text within the line -/
  | sameLine
  /-- at least one character, none of them a quote -/
  | unquoted
  deriving DecidableEq, Repr

/-- A sequence of pieces. -/
abbrev Phrase := List Piece

/-- The small form of a character for comparisons without case: besides the ASCII letters the
    long s and the Kelvin sign fold to ASCII. -/
def foldCase (c : Char) : Char :=
  if c.val == 0x17F then 's' else if c.val == 0x212A then 'k' else c.toLower

/-- The spot after a literal text. -/
def Spot.past : List Char → Spot → Option Spot
  | [], s => some s
  | _ :: _, ⟨_, []⟩ => none
  | x :: xs, ⟨_, c :: r⟩ => if x = c then Spot.past xs ⟨some c, r⟩ else none

/-- The spots reached by passing any number of characters of a class. -/
def spotsWhile (p : Char → Bool) : Option Char → List Char → List Spot
  | before, [] => [⟨before, []⟩]
  | before, c :: r => ⟨before, c :: r⟩ :: (if p c then spotsWhile p (some c) r else [])

/-- The spots where a piece that starts at a spot may end. -/
def Piece.ends : Piece → Spot → List Spot
  | .word text, s => (s.past text.toList).toList
  | .maybe text, s => (s.past text.toList).toList ++ [s]
  | .oneOf texts, s => texts.filterMap fun text => s.past text.toList
  | .edge, s => if isEdge s.before s.after.head? then [s] else []
  | .blanks, s => spotsWhile isBlank s.before s.after
  | .sameLine, s => spotsWhile (· != '\n') s.before s.after
  | .unquoted, ⟨_, []⟩ => []
  | .unquoted, ⟨_, c :: r⟩ => if c = '\'' then [] else spotsWhile (· != '\'') (some c) r

/-- Whether a phrase matches at a spot. -/
def Phrase.matchesAt : Phrase → Spot → Bool
  | [], _ => true
  | p :: ps, s => (p.ends s).any fun s' => Phrase.matchesAt ps s'

/-- Whether a phrase matches at some position of the text after a character. -/
def Phrase.occursFrom (phrase : Phrase) : Option Char → List Char → Bool
  | before, [] => phrase.matchesAt ⟨before, []⟩
  | before, c :: r => phrase.matchesAt ⟨before, c :: r⟩ || phrase.occursFrom (some c) r

/-- Whether a text holds a phrase, in any case. -/
def Phrase.occursIn (phrase : Phrase) (cs : List Char) : Bool :=
  phrase.occursFrom none (cs.map foldCase)

end ProofLedger.Text
