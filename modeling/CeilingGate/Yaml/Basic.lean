import CeilingGate.Stop

/-! The nodes of a YAML document, and why a text may have none. An alias is the node that it names, so
nodes form a graph, and a collection may contain itself. -/
namespace CeilingGate.Yaml

/-- Why a YAML text has no value. `malformed` covers everything before values are built: characters,
tokens, structure, anchors. -/
inductive Failure
  | malformed
  | construction (problem : String)
  | badValue
  | badType
  | abort (a : Abort)
deriving DecidableEq, Repr

/-- Nodes are known by their place in the graph. -/
abbrev NodeId := Nat

inductive Node
  | scalar (tag : String) (text : List Char)
  | brokenScalar (tag : String) (codes : List Nat)
  | sequence (tag : String) (items : List NodeId)
  | mapping (tag : String) (entries : List (NodeId × NodeId))
deriving DecidableEq, Repr, Inhabited

namespace Node

def tag : Node → String
  | scalar tag _ => tag
  | brokenScalar tag _ => tag
  | sequence tag _ => tag
  | mapping tag _ => tag

/-- The kind of a node, as messages name it. -/
def kind : Node → String
  | scalar _ _ | brokenScalar _ _ => "scalar"
  | sequence _ _ => "sequence"
  | mapping _ _ => "mapping"

def isMapping : Node → Bool
  | mapping _ _ => true
  | _ => false

end Node

abbrev Graph := Array Node

end CeilingGate.Yaml
