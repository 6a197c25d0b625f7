import CeilingGate.Yaml.Content
import CeilingGate.Yaml.Node.OfTokens
import CeilingGate.Yaml.Token.Stream

/-! Reading YAML texts, from characters to the value of the one document. -/
namespace CeilingGate.Yaml

/-- How many collections inside each other a reader of policies looks at. -/
def viewDepth : Nat := 4

/-- The graph of a text and its root; none for a text without a document. -/
def graph (cs : List Char) : Except Failure (Option (NodeId × Graph)) :=
  if cs.all isAllowed then
    let (ts, fault?) := tokens cs
    Composer.document ts (fault?.getD .malformed)
  else .error .malformed

/-- The value of a text; a text without a document has the empty value. -/
def read (cs : List Char) : Except Failure Value := do
  match ← graph cs with
  | none => return .null
  | some (root, g) =>
    let b ← Builder.ofGraph g root
    return b.value viewDepth root

def readBytes (bytes : List UInt8) : Except Failure Value :=
  match decode? bytes with
  | some cs => read cs
  | none => .error .malformed

end CeilingGate.Yaml
