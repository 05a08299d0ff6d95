import ProofLedger.Yaml.Node.Grammar
import ProofLedger.Yaml.Token.Reading
import ProofLedger.Yaml.Value

/-!
# Reading YAML

A text holds at most one document, whose root is a mapping or empty. Where it holds none, nothing
is said, and the value has no entries.
-/

namespace ProofLedger.Yaml

/-- Reads the document in a text. -/
def read? (text : String) : Option Json := do
  match ← Node.ofTokens? (← Token.ofText? text) with
  | none => return .emptyObject
  | some root => root.rootValue?

end ProofLedger.Yaml
