/-!
# Lines of a text

A line ends at a newline; a carriage return right before that newline belongs to the line
end. What follows the last newline is a line of its own unless it is empty.
-/

namespace ProofLedger.Text

/-- The lines of a text, without their ends. -/
def lines : List Char → List (List Char)
  | [] => []
  | '\n' :: r => [] :: lines r
  | '\r' :: '\n' :: r => [] :: lines r
  | c :: r =>
    match lines r with
    | [] => [[c]]
    | l :: ls => (c :: l) :: ls

/-- Lines put back together with newlines between them. -/
def unlines : List (List Char) → List Char
  | [] => []
  | [l] => l
  | l :: ls => l ++ '\n' :: unlines ls

end ProofLedger.Text
