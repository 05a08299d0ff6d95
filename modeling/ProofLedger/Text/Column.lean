/-!
# Columns

Texts filled up with spaces to the width of a column. A text that is wider keeps its width.
-/

namespace ProofLedger.Text

/-- The spaces that a text lacks to a width. -/
def filler (width : Nat) (s : String) : String :=
  String.ofList (List.replicate (width - s.length) ' ')

/-- A text at the left of a column. -/
def alignLeft (width : Nat) (s : String) : String := s ++ filler width s

/-- A text at the right of a column. -/
def alignRight (width : Nat) (s : String) : String := filler width s ++ s

end ProofLedger.Text
