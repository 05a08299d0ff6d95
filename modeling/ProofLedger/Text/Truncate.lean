/-!
# Cutting texts

A text that is too long keeps its beginning and ends in three dots, which count. A limit below
three still leaves the dots.
-/

namespace ProofLedger.Text

/-- A text of at most so many characters. -/
def truncate (limit : Nat) (s : String) : String :=
  let cs := s.toList
  if cs.length ≤ limit then s else String.ofList (cs.take (limit - 3) ++ ['.', '.', '.'])

end ProofLedger.Text
