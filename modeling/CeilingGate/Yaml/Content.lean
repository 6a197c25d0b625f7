import CeilingGate.Text.Basic
import CeilingGate.Value.Key
import CeilingGate.Value.Text
import CeilingGate.Yaml.Node.Merge
import CeilingGate.Yaml.Scalar

/-! The contents of nodes. Collections are filled one after the other in the order in which they were
met, so a collection may hold one that is not yet filled. Inside a key everything is filled at
once. -/
namespace CeilingGate.Yaml

/-- The content of a node; parts of collections are named by their nodes. -/
inductive Content
  | leaf (v : Value)
  | list (items : List NodeId)
  | set (keys : List Value)
  | dict (entries : List (Value × NodeId))
  | pairs (entries : List (NodeId × NodeId))
deriving Repr, Inhabited

/-- `underWay` are the nodes begun but not finished, `waiting` the collections yet to be filled, in order. -/
structure Builder where
  graph : Graph
  contents : Array (Option Content)
  underWay : List NodeId
  waiting : List NodeId

namespace Builder

abbrev Build := Except Failure

def content? (b : Builder) (id : NodeId) : Option Content := b.contents[id]?.join

def setContent (b : Builder) (id : NodeId) (c : Content) : Builder :=
  { b with contents := b.contents.setIfInBounds id (some c) }

/-- A code that is no character is replaced. -/
def replaced (code : Nat) : Char := if Text.isHalfCode code then '\ufffd' else Char.ofNat code

/-- The most calls that may be under way at once. -/
def frameLimit : Nat := callsLeft

/-- The text of a scalar. A mapping with an equals sign among its keys stands for that key's
content. -/
def scalarText (g : Graph) : Nat → NodeId → Build (List Char)
  | 0, _ => .error (.abort .tooDeep)
  | frames + 1, id =>
    match g.node id with
    | .scalar _ text => .ok text
    | .brokenScalar _ codes => .ok (codes.map replaced)
    | .mapping _ es =>
      match es.find? fun (key, _) => (g.node key).tag == standard "value" with
      | some (_, content) => scalarText g frames content
      | none => .error (.construction "expected a scalar node, but found mapping")
    | .sequence _ _ => .error (.construction "expected a scalar node, but found sequence")

/-- The value of a node under a tag that reads scalars. A moment is not read from a mapping. -/
def scalarValue (g : Graph) (frames : Nat) (tag : String)
    (read : List Char → Except Failure Value) (id : NodeId) : Build Value := do
  let text ← scalarText g frames id
  if tag == standard "timestamp" && (g.node id).isMapping then throw Failure.badType
  match g.node id with
  | .brokenScalar _ codes => if tag == standard "str" then return .brokenText codes else read text
  | _ => read text

def isCollectionTag (tag : String) : Bool :=
  ["seq", "map", "set", "omap", "pairs"].any fun name => tag == standard name

def emptyContent (tag : String) : Content :=
  if tag == standard "map" then .dict []
  else if tag == standard "set" then .set []
  else if tag == standard "seq" then .list []
  else .pairs []

/-- A value as far as `depth` collections inside each other; deeper collections appear empty. -/
def value (b : Builder) : Nat → NodeId → Value
  | depth, id =>
    match b.content? id, depth with
    | none, _ => .null
    | some (.leaf v), _ => v
    | some (.set keys), _ => .set keys
    | some (.list _), 0 => .list []
    | some (.dict _), 0 => .dict []
    | some (.pairs _), 0 => .list []
    | some (.list items), depth + 1 => .list (items.map (b.value depth))
    | some (.dict entries), depth + 1 => .dict (entries.map fun (k, v) => (k, b.value depth v))
    | some (.pairs entries), depth + 1 =>
      .list (entries.map fun (k, v) => .tuple [b.value depth k, b.value depth v])

/-- Whether lists of nodes are equal, item by item up to the first difference. -/
def sameNodes (same : NodeId → NodeId → Build Bool) : List NodeId → List NodeId → Build Bool
  | [], [] => .ok true
  | x :: xs, y :: ys => do if ← same x y then sameNodes same xs ys else return false
  | _, _ => .ok false

/-- Whether each entry has a partner of the same key and an equal content. -/
def sameEntries (same : NodeId → NodeId → Build Bool) (others : List (Value × NodeId)) :
    List (Value × NodeId) → Build Bool
  | [] => .ok true
  | (k, x) :: rest =>
    match others.find? fun e => Value.sameKey e.1 k with
    | some (_, y) => do if ← same x y then sameEntries same others rest else return false
    | none => .ok false

/-- The nodes of pairs in a row. -/
def pairNodes (entries : List (NodeId × NodeId)) : List NodeId := entries.flatMap fun (k, v) => [k, v]

def isSubset (keys others : List Value) : Bool :=
  keys.all fun k => others.any fun l => Value.sameKey k l

/-- Whether two nodes have equal values. A node is equal to itself; of others the whole contents are
compared, which takes a call for each collection. -/
def same (b : Builder) : Nat → NodeId → NodeId → Build Bool
  | 0, _, _ => .error (.abort .tooDeep)
  | frames + 1, x, y =>
    if x = y then .ok true
    else
      match b.content? x, b.content? y with
      | some (.leaf v), some (.leaf w) => .ok (Value.sameKey v w)
      | some (.list xs), some (.list ys) =>
        if xs.length = ys.length then sameNodes (same b frames) xs ys else .ok false
      | some (.pairs xs), some (.pairs ys) =>
        if xs.length = ys.length then sameNodes (same b frames) (pairNodes xs) (pairNodes ys)
        else .ok false
      | some (.list xs), some (.pairs ys) => .ok (xs.isEmpty && ys.isEmpty)
      | some (.pairs xs), some (.list ys) => .ok (xs.isEmpty && ys.isEmpty)
      | some (.dict xs), some (.dict ys) =>
        if xs.length = ys.length then sameEntries (same b frames) ys xs else .ok false
      | some (.set ks), some (.set ls) => .ok (ks.length == ls.length && isSubset ks ls)
      | _, _ => .ok false

/-- The first items that differ decide. -/
def nodesBelow (same below : NodeId → NodeId → Build Bool) : List NodeId → List NodeId → Build Bool
  | _, [] => .ok false
  | [], _ :: _ => .ok true
  | x :: xs, y :: ys => do if ← same x y then nodesBelow same below xs ys else below x y

/-- Whether the value of a node comes before that of another. Mappings have no order. -/
def below (b : Builder) : Nat → NodeId → NodeId → Build Bool
  | 0, _, _ => .error (.abort .tooDeep)
  | frames + 1, x, y =>
    match b.content? x, b.content? y with
    | some (.leaf v), some (.leaf w) =>
      match Value.below? v w with
      | some isBelow => .ok isBelow
      | none => .error .badType
    | some (.list xs), some (.list ys) => nodesBelow (b.same frames) (below b frames) xs ys
    | some (.pairs xs), some (.pairs ys) =>
      nodesBelow (b.same frames) (below b frames) (pairNodes xs) (pairNodes ys)
    | some (.list xs), some (.pairs ys) =>
      if xs.isEmpty || ys.isEmpty then .ok (xs.isEmpty && !ys.isEmpty) else .error .badType
    | some (.pairs xs), some (.list ys) =>
      if xs.isEmpty || ys.isEmpty then .ok (xs.isEmpty && !ys.isEmpty) else .error .badType
    | some (.set ks), some (.set ls) => .ok (ks.length < ls.length && isSubset ks ls)
    | _, _ => .error .badType

/-- Whether an entry of a key comes before another: by the texts of their own keys, then by content. -/
def entryBelow (b : Builder) (frames : Nat) (e f : RawText × NodeId) : Build Bool :=
  if e.1 = f.1 then do if ← b.same frames e.2 f.2 then return false else b.below frames e.2 f.2
  else .ok (e.1 < f.1)

def insertEntry (below : RawText × NodeId → RawText × NodeId → Build Bool) (e : RawText × NodeId) :
    List (RawText × NodeId) → Build (List (RawText × NodeId))
  | [] => .ok [e]
  | f :: rest => do
    if ← below e f then return e :: f :: rest
    else
      let rest ← insertEntry below e rest
      return f :: rest

def sortEntries (below : RawText × NodeId → RawText × NodeId → Build Bool)
    (entries : List (RawText × NodeId)) : Build (List (RawText × NodeId)) :=
  entries.foldlM (fun sorted e => insertEntry below e sorted) []

/-- An entry of a mapping that is a key, known by the text of its own key. -/
def textEntry (entry : Value × NodeId) : Build (RawText × NodeId) :=
  match entry.1.text? with
  | some t => .ok (t, entry.2)
  | none => .error .badValue

/-- A mapping as a key: its entries as pairs of text and value, sorted. A pair with a collection in it
can be no part of a key, whatever the collection holds. -/
def frozenKey (b : Builder) (frames : Nat) (entries : List (Value × NodeId)) : Build Value := do
  let named ← entries.mapM textEntry
  let sorted ← sortEntries (b.entryBelow frames) named
  return .tuple (sorted.map fun (t, id) => .tuple [t.toValue, b.value 0 id])

def unhashable : Failure := .construction "found unhashable key"

/-- Adds an entry to those already there, the key before its content. -/
def addEntry (key : Builder → NodeId → Build (Builder × Value))
    (content : Builder → NodeId → Build Builder) :
    Builder × List (Value × NodeId) → NodeId × NodeId → Build (Builder × List (Value × NodeId))
  | (b, done), (keyId, contentId) => do
    let (b, k) ← key b keyId
    if !k.isHashable then throw unhashable
    let b ← content b contentId
    return (b, Value.insertEntry done k contentId)

/-- Adds an item of a list of pairs: a mapping with one entry. -/
def addPair (content : Builder → NodeId → Build Builder) :
    Builder × List (NodeId × NodeId) → NodeId → Build (Builder × List (NodeId × NodeId))
  | (b, done), item =>
    match b.graph.node item with
    | .mapping _ [(key, value)] => do
      let b ← content b key
      let b ← content b value
      return (b, done ++ [(key, value)])
    | .mapping _ es =>
      .error (.construction
        ("expected a single mapping item, but found " ++ toString es.length ++ " items"))
    | node =>
      .error (.construction ("expected a mapping of length 1, but found " ++ node.kind))

/-- The value of a key. A mapping is read as one whatever its tag says. -/
def keyValue (frames : Nat) (mapping : Builder → NodeId → Build (Builder × List (Value × NodeId)))
    (content : Builder → NodeId → Build Builder) (b : Builder) (id : NodeId) :
    Build (Builder × Value) :=
  if (b.graph.node id).isMapping then do
    let (b, inner) ← mapping b id
    let k ← b.frozenKey frames inner
    return (b, k)
  else do
    let b ← content b id
    return (b, b.value 0 id)

mutual
/-- The content of a node. With `deep`, collections are filled at once, and a node that contains
itself has no content. -/
def build (deep : Bool) : Nat → Builder → NodeId → Build Builder
  | 0, _, _ => .error (.abort .tooDeep)
  | frames + 1, b, id =>
    if (b.content? id).isSome then .ok b
    else if b.underWay.contains id then
      .error (.construction "found unconstructable recursive node")
    else
      let tag := (b.graph.node id).tag
      match Scalar.reader? tag with
      | some read => do
        let v ← scalarValue b.graph frames tag read id
        return b.setContent id (.leaf v)
      | none =>
        if isCollectionTag tag then
          if deep then do
            let b ← fill true frames { b with underWay := id :: b.underWay } id
            return { b with underWay := b.underWay.erase id }
          else
            .ok { b.setContent id (emptyContent tag) with waiting := b.waiting ++ [id] }
        else
          .error (.construction
            ("could not determine a constructor for the tag " ++ Text.quoted tag))
termination_by structural frames => frames

/-- Fills a collection as its tag says. -/
def fill (deep : Bool) : Nat → Builder → NodeId → Build Builder
  | 0, _, _ => .error (.abort .tooDeep)
  | frames + 1, b, id =>
    let node := b.graph.node id
    if node.tag == standard "seq" then
      match node with
      | .sequence _ items => do
        let b ← sequence deep frames b items
        return b.setContent id (.list items)
      | _ => .error (.construction ("expected a sequence node, but found " ++ node.kind))
    else if node.tag == standard "map" then do
      let (b, entries) ← mapping deep frames b id
      return b.setContent id (.dict entries)
    else if node.tag == standard "set" then do
      let (b, entries) ← mapping deep frames b id
      return b.setContent id (.set (entries.map (·.1)))
    else
      match node with
      | .sequence _ items => do
        let (b, entries) ← items.foldlM (addPair fun b id => build deep frames b id) (b, [])
        return b.setContent id (.pairs entries)
      | _ => .error (.construction ("expected a sequence, but found " ++ node.kind))
termination_by structural frames => frames

/-- The items of a sequence, which take two calls. -/
def sequence (deep : Bool) : Nat → Builder → List NodeId → Build Builder
  | frames + 2, b, items => items.foldlM (fun b item => build deep frames b item) b
  | _, _, _ => .error (.abort .tooDeep)
termination_by structural frames => frames

/-- The entries of a mapping node, merge keys resolved. -/
def mapping (deep : Bool) : Nat → Builder → NodeId → Build (Builder × List (Value × NodeId))
  | 0, _, _ => .error (.abort .tooDeep)
  | frames + 1, b, id =>
    if (b.graph.node id).isMapping then do
      let g ← b.graph.flatten frames id
      (g.entries id).foldlM
        (addEntry
          (keyValue frames (fun b id => mapping true frames b id)
            fun b id => build deep frames b id)
          fun b id => build deep frames b id)
        ({ b with graph := g }, [])
    else
      .error (.construction
        ("expected a mapping node, but found " ++ (b.graph.node id).kind))
termination_by structural frames => frames
end

/-- Fills the collections that wait, and those that are met on the way. -/
def fillWaiting : Nat → Builder → Build Builder
  | 0, b => .ok b
  | rounds + 1, b =>
    match b.waiting with
    | [] => .ok b
    | id :: rest => do
      let b ← fill false frameLimit { b with waiting := rest } id
      fillWaiting rounds b

/-- The contents of all nodes that a root reaches. A collection waits once at most. -/
def ofGraph (g : Graph) (root : NodeId) : Build Builder := do
  let b ← build false frameLimit ⟨g, Array.replicate g.size none, [], []⟩ root
  fillWaiting (g.size + 1) b

end Builder

end CeilingGate.Yaml
