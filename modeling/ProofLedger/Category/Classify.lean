import ProofLedger.Category
import ProofLedger.Text.Phrase

/-!
# Classifying failure messages

Each category but the last has phrases; the first category with a phrase in the message is
taken. Later categories have broader phrases, so their order matters.
-/

namespace ProofLedger.Category

open Text Piece

/-- The phrases of a category. -/
def phrases : Category → List Phrase
  | .timeout =>
    [[edge, word "time", maybe "d", blanks, word "out", edge],
      [edge, word "timeout", edge],
      [word "maximum recursion depth"],
      [edge, word "heartbeat", maybe "s", edge]]
  | .unknownIdentifier =>
    [[word "unknown ", oneOf ["identifier", "constant", "declaration", "namespace"]],
      [word "unknown free variable"],
      [word "is not a ", oneOf ["field", "member"], word " of"]]
  | .typeMismatch =>
    [[word "type mismatch"],
      [word "has type", sameLine, word "but is expected to have type"],
      [word "failed to synthesize"],
      [word "cannot unify"]]
  | .tacticFailed =>
    [[word "tactic '", unquoted, word "' failed"],
      [edge,
        oneOf ["simp", "linarith", "omega", "decide", "norm_num", "ring", "nlinarith",
          "positivity", "aesop"],
        edge, sameLine, edge, oneOf ["failed", "made no progress"]],
      [word "made no progress"],
      [word "rewrite failed"],
      [word "motive is not type correct"],
      [word "did not find instance of the pattern"]]
  | .unsolvedGoals =>
    [[word "unsolved goals"],
      [word "goal", maybe "s", word " ", oneOf ["remain", "accomplished: no"]],
      [word "no goals to be proved"]]
  | .kernelError =>
    [[word "(kernel)"],
      [word "kernel ", oneOf ["error", "exception"]],
      [word "declaration has ", oneOf ["free variables", "metavariables"]]]
  | .syntaxError =>
    [[word "unexpected ", oneOf ["token", "identifier", "end of input"]],
      [word "parse error"],
      [word "syntax error"],
      [edge, word "expected", edge]]
  | .other => []

/-- Whether a message holds a phrase of a category. -/
def recognises (c : Category) (message : List Char) : Bool :=
  c.phrases.any fun phrase => phrase.occursIn message

/-- The category of a message. -/
def classifyChars (message : List Char) : Category :=
  (all.find? fun c => c.recognises message).getD .other

/-- The category of a message given as a string. -/
def classify (message : String) : Category := classifyChars message.toList

end ProofLedger.Category
