import CeilingGate.Yaml.Basic
import CeilingGate.Yaml.Tag

/-! Merge keys: the entries of other mappings are put before the entries of the mapping that names
them. -/
namespace CeilingGate.Yaml.Graph

def node (g : Graph) (id : NodeId) : Node := g[id]?.getD (.scalar (standard "null") [])

def entries (g : Graph) (id : NodeId) : List (NodeId × NodeId) :=
  match g.node id with
  | .mapping _ es => es
  | _ => []

def setEntries (g : Graph) (id : NodeId) (es : List (NodeId × NodeId)) : Graph :=
  match g.node id with
  | .mapping tag _ => g.setIfInBounds id (.mapping tag es)
  | _ => g

/-- Turns an equals sign that is a key into an ordinary text. -/
def asText (g : Graph) (id : NodeId) : Graph :=
  match g.node id with
  | .scalar _ text => g.setIfInBounds id (.scalar (standard "str") text)
  | .brokenScalar _ codes => g.setIfInBounds id (.brokenScalar (standard "str") codes)
  | .sequence _ items => g.setIfInBounds id (.sequence (standard "str") items)
  | .mapping _ es => g.setIfInBounds id (.mapping (standard "str") es)

def isMerge (g : Graph) (entry : NodeId × NodeId) : Bool :=
  (g.node entry.1).tag == standard "merge"

/-- How many entries stand before the first merge key. An equals sign among their keys becomes an
ordinary text. -/
def passEntries (g : Graph) : List (NodeId × NodeId) → Nat × Graph
  | [] => (0, g)
  | e :: rest =>
    if g.isMerge e then (0, g)
    else
      let g := if (g.node e.1).tag == standard "value" then g.asText e.1 else g
      let (n, g) := passEntries g rest
      (n + 1, g)

/-- Adds the entries of an item of a merged list. -/
def mergeItem (flatten : Graph → NodeId → Except Failure Graph) :
    Graph × List (List (NodeId × NodeId)) → NodeId →
      Except Failure (Graph × List (List (NodeId × NodeId)))
  | (g, parts), item =>
    if (g.node item).isMapping then do
      let g ← flatten g item
      return (g, parts ++ [g.entries item])
    else
      .error (.construction
        ("expected a mapping for merging, but found " ++ (g.node item).kind))

/-- The entries that a merge key stands for. What it names is resolved before. -/
def mergedEntries (flatten : Graph → NodeId → Except Failure Graph) (g : Graph) (content : NodeId) :
    Except Failure (Graph × List (NodeId × NodeId)) :=
  match g.node content with
  | .mapping _ _ => do
    let g ← flatten g content
    return (g, g.entries content)
  | .sequence _ items => do
    let (g, parts) ← items.foldlM (mergeItem flatten) (g, [])
    return (g, parts.reverse.flatten)
  | .scalar _ _ | .brokenScalar _ _ =>
    .error (.construction "expected a mapping or list of mappings for merging, but found scalar")

/-- Resolves the merge keys of a mapping from the entry at `position` on; `merged` holds the entries
found so far. A merge key is removed before the mappings that it names are entered, so there are at most
`keys` steps, where `keys` are all merge keys that are left. -/
def flattenFrom (keys frames : Nat) (g : Graph) (id : NodeId) (position : Nat)
    (merged : List (NodeId × NodeId)) : Except Failure Graph :=
  if frames = 0 then .error (.abort .tooDeep)
  else
    let (n, g) := g.passEntries ((g.entries id).drop position)
    match keys, (g.entries id)[position + n]? with
    | keys + 1, some (_, content) => do
      let g := g.setEntries id ((g.entries id).eraseIdx (position + n))
      let (g, found) ←
        g.mergedEntries (fun g named => flattenFrom keys (frames - 1) g named 0 []) content
      flattenFrom keys frames g id (position + n) (merged ++ found)
    | _, _ => .ok (if merged.isEmpty then g else g.setEntries id (merged ++ g.entries id))
termination_by structural keys

/-- The merge keys of all mappings. -/
def mergeCount (g : Graph) : Nat :=
  g.foldl (fun count n =>
    match n with
    | .mapping _ es => count + es.countP g.isMerge
    | _ => count) 0

/-- Resolves the merge keys of a mapping, `frames` calls inside each other at most. -/
def flatten (g : Graph) (frames : Nat) (id : NodeId) : Except Failure Graph :=
  g.flattenFrom g.mergeCount frames id 0 []

end CeilingGate.Yaml.Graph
