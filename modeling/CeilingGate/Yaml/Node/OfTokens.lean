import CeilingGate.Yaml.Basic
import CeilingGate.Yaml.Tag
import CeilingGate.Yaml.Token.Basic

/-! The graph of nodes that a row of tokens describes. -/
namespace CeilingGate.Yaml

/-- The tokens may end early; `fault` then tells why. -/
structure Composer where
  tokens : List Token
  fault : Failure
  graph : Graph
  anchors : List (String × NodeId)
  handles : List (String × String)

namespace Composer

/-- Collections nest at most so deep: each takes two of the calls that are left, and the document takes
ten. -/
def depthLimit : Nat := (callsLeft - 10) / 2

def peek? (s : Composer) : Option Token := s.tokens.head?

/-- The failure of a text whose structure is broken here. -/
def broken (s : Composer) : Failure := if s.tokens.isEmpty then s.fault else .malformed

def next (s : Composer) : Composer := { s with tokens := s.tokens.drop 1 }

def ahead (s : Composer) (ts : List Token) : Bool := (s.peek?.map ts.contains).getD false

def add (s : Composer) (n : Node) : NodeId × Composer :=
  (s.graph.size, { s with graph := s.graph.push n })

/-- Where an empty place in the text stands for a node. -/
def addEmpty (s : Composer) : NodeId × Composer := s.add (.scalar (implicitTag []) [])

def fill (s : Composer) (id : NodeId) (n : Node) : Composer :=
  { s with graph := s.graph.setIfInBounds id n }

/-- A new anchor; a name is used only once. -/
def register (s : Composer) (anchor? : Option String) (id : NodeId) : Composer :=
  match anchor? with
  | some name => { s with anchors := (name, id) :: s.anchors }
  | none => s

structure Properties where
  anchor? : Option String
  tag? : Option (Option String × String)

/-- An anchor and a tag, in either order. -/
def properties (s : Composer) : Properties × Composer :=
  match s.tokens with
  | .anchor a :: .tag h x :: rest => (⟨some a, some (h, x)⟩, { s with tokens := rest })
  | .anchor a :: rest => (⟨some a, none⟩, { s with tokens := rest })
  | .tag h x :: .anchor a :: rest => (⟨some a, some (h, x)⟩, { s with tokens := rest })
  | .tag h x :: rest => (⟨none, some (h, x)⟩, { s with tokens := rest })
  | _ => (⟨none, none⟩, s)

/-- The full tag of a node; a lone exclamation mark leaves it to the node's form. -/
def fullTag? (s : Composer) (p : Properties) : Except Failure (Option String) :=
  match p.tag? with
  | none => .ok none
  | some (none, suffix) => .ok (if suffix == "!" then none else some suffix)
  | some (some handle, suffix) =>
    match s.handles.lookup handle with
    | some start =>
      let full := start ++ suffix
      .ok (if full == "!" then none else some full)
    | none => .error .malformed

/-- A plain scalar, and one behind a lone exclamation mark, has the tag of its form. -/
def scalarTag (p : Properties) (full? : Option String) (plain : Bool) (text : List Char) : String :=
  match full? with
  | some t => t
  | none => if plain || p.tag?.isSome then implicitTag text else standard "str"

/-- Composes from a state on. -/
abbrev Compose (α : Type) := Composer → Except Failure (α × Composer)

/-- A node without parts. -/
def leaf (s : Composer) (anchor? : Option String) (n : Node) : NodeId × Composer :=
  let (id, s) := s.add n
  (id, s.register anchor? id)

/-- A sequence; its items may refer to it. -/
def sequence (anchor? : Option String) (tag : String) (items : Compose (List NodeId)) :
    Compose NodeId := fun s => do
  let (id, s) := s.leaf anchor? (.sequence tag [])
  let (items, s) ← items s
  return (id, s.fill id (.sequence tag items))

/-- A mapping; its keys and contents may refer to it. -/
def mapping (anchor? : Option String) (tag : String) (entries : Compose (List (NodeId × NodeId))) :
    Compose NodeId := fun s => do
  let (id, s) := s.leaf anchor? (.mapping tag [])
  let (entries, s) ← entries s
  return (id, s.fill id (.mapping tag entries))

/-- A node, or an empty one where another token shows that there is none. -/
def orEmpty (ends : List Token) (node : Compose NodeId) : Compose NodeId := fun s =>
  if s.ahead ends then .ok s.addEmpty else node s

/-- The content behind a colon, or an empty one if there is no colon. -/
def contentNode (ends : List Token) (node : Compose NodeId) : Compose NodeId := fun s =>
  if s.ahead [.value] then orEmpty ends node s.next else .ok s.addEmpty

/-- A key and its content. -/
def pair (keyEnds contentEnds : List Token) (node : Compose NodeId) : Compose (NodeId × NodeId) :=
  fun s => do
    let (key, s) ← orEmpty keyEnds node s
    let (content, s) ← contentNode contentEnds node s
    return ((key, content), s)

/-- The properties of a node and its full tag. What comes next is looked at before a tag that stands
alone is examined, and before an anchor, which must be new. -/
def newProperties (s : Composer) : Except Failure ((Properties × Option String) × Composer) := do
  let (p, s) := s.properties
  if s.tokens.isEmpty && !(p.anchor?.isSome && p.tag?.isSome) then throw s.fault
  let full? ← s.fullTag? p
  if s.tokens.isEmpty then throw s.fault
  if (p.anchor?.bind fun a => s.anchors.lookup a).isSome then throw Failure.malformed
  return ((p, full?), s)

mutual
/-- A node, inside `depth` collections. Block collections may start here if `block`; a sequence
without indentation of its own may start here if `indentless`. -/
def node (block indentless : Bool) : Nat → Nat → Compose NodeId
  | 0, _, _ => .error .malformed
  | fuel + 1, depth, s =>
    if depth > depthLimit then .error (.abort .tooDeep)
    else
      match s.tokens with
      | .alias name :: rest =>
        match s.anchors.lookup name with
        | some id => .ok (id, { s with tokens := rest })
        | none => .error .malformed
      | _ => do
        let ((p, full?), s) ← s.newProperties
        let seqTag := full?.getD (standard "seq")
        let mapTag := full?.getD (standard "map")
        match s.tokens with
        | .scalar text plain :: _ =>
          return s.next.leaf p.anchor? (.scalar (scalarTag p full? plain text) text)
        | .brokenScalar codes :: _ =>
          return s.next.leaf p.anchor? (.brokenScalar (scalarTag p full? false []) codes)
        | t :: _ =>
          if t == .blockEntry && indentless then
            sequence p.anchor? seqTag (fun s => blockItems true fuel depth s) s
          else if t == .flowSequenceStart then
            sequence p.anchor? seqTag (fun s => flowItems true fuel depth s) s.next
          else if t == .flowMappingStart then
            mapping p.anchor? mapTag (fun s => flowEntries true fuel depth s) s.next
          else if t == .blockSequenceStart && block then
            sequence p.anchor? seqTag (fun s => blockItems false fuel depth s) s.next
          else if t == .blockMappingStart && block then
            mapping p.anchor? mapTag (fun s => blockEntries fuel depth s) s.next
          else if p.anchor?.isSome || p.tag?.isSome then
            return s.leaf p.anchor? (.scalar (full?.getD (implicitTag [])) [])
          else throw Failure.malformed
        | [] => throw s.fault
termination_by structural fuel => fuel

/-- The items of a block sequence up to its end; one without indentation ends at any other token. -/
def blockItems (indentless : Bool) : Nat → Nat → Compose (List NodeId)
  | 0, _, _ => .error .malformed
  | fuel + 1, depth, s =>
    if s.ahead [.blockEntry] then do
      let ends : List Token :=
        if indentless then [.blockEntry, .key, .value, .blockEnd] else [.blockEntry, .blockEnd]
      let (id, s) ← orEmpty ends (fun s => node true false fuel (depth + 1) s) s.next
      let (items, s) ← blockItems indentless fuel depth s
      return (id :: items, s)
    else if indentless then .ok ([], s)
    else if s.ahead [.blockEnd] then .ok ([], s.next)
    else .error s.broken
termination_by structural fuel => fuel

def blockEntries : Nat → Nat → Compose (List (NodeId × NodeId))
  | 0, _, _ => .error .malformed
  | fuel + 1, depth, s =>
    if s.ahead [.key] then do
      let ends : List Token := [.key, .value, .blockEnd]
      let (entry, s) ← pair ends ends (fun s => node true true fuel (depth + 1) s) s.next
      let (entries, s) ← blockEntries fuel depth s
      return (entry :: entries, s)
    else if s.ahead [.blockEnd] then .ok ([], s.next)
    else .error s.broken
termination_by structural fuel => fuel

/-- The items of a flow sequence. A key among them makes a mapping with one entry. -/
def flowItems (first : Bool) : Nat → Nat → Compose (List NodeId)
  | 0, _, _ => .error .malformed
  | fuel + 1, depth, s =>
    if s.ahead [.flowSequenceEnd] then .ok ([], s.next)
    else if !first && !s.ahead [.flowEntry] then .error s.broken
    else
      let s := if first then s else s.next
      if s.ahead [.key] then do
        let ends : List Token := [.flowEntry, .flowSequenceEnd]
        let entry : Compose (List (NodeId × NodeId)) := fun s => do
          let (entry, s) ← pair (.value :: ends) ends (fun s => node false false fuel (depth + 2) s) s
          return ([entry], s)
        let (id, s) ← mapping none (standard "map") entry s.next
        let (items, s) ← flowItems false fuel depth s
        return (id :: items, s)
      else if s.ahead [.flowSequenceEnd] then .ok ([], s.next)
      else do
        let (id, s) ← node false false fuel (depth + 1) s
        let (items, s) ← flowItems false fuel depth s
        return (id :: items, s)
termination_by structural fuel => fuel

def flowEntries (first : Bool) : Nat → Nat → Compose (List (NodeId × NodeId))
  | 0, _, _ => .error .malformed
  | fuel + 1, depth, s =>
    if s.ahead [.flowMappingEnd] then .ok ([], s.next)
    else if !first && !s.ahead [.flowEntry] then .error s.broken
    else
      let s := if first then s else s.next
      if s.ahead [.key] then do
        let ends : List Token := [.flowEntry, .flowMappingEnd]
        let (entry, s) ←
          pair (.value :: ends) ends (fun s => node false false fuel (depth + 1) s) s.next
        let (entries, s) ← flowEntries false fuel depth s
        return (entry :: entries, s)
      else if s.ahead [.flowMappingEnd] then .ok ([], s.next)
      else do
        let (key, s) ← node false false fuel (depth + 1) s
        let (content, s) := s.addEmpty
        let (entries, s) ← flowEntries false fuel depth s
        return ((key, content) :: entries, s)
termination_by structural fuel => fuel
end

def defaultHandles : List (String × String) := [("!", "!"), ("!!", "tag:yaml.org,2002:")]

/-- The directives before a document. Each handle is declared once, and the version's major number
is one. -/
def directives : List Token → Bool → List (String × String) →
    Except Failure (List (String × String) × List Token)
  | .directive (.version major) :: rest, versioned, handles =>
    if versioned || major != 1 then .error .malformed else directives rest true handles
  | .directive (.handle name start) :: rest, versioned, handles =>
    if (handles.lookup name).isSome then .error .malformed
    else directives rest versioned ((name, start) :: handles)
  | .directive .other :: rest, versioned, handles => directives rest versioned handles
  | tokens, _, handles => .ok (handles ++ defaultHandles, tokens)

/-- Whether nothing but end markers follows a document. -/
def isFinished (tokens : List Token) : Bool :=
  tokens.dropWhile (· == .documentEnd) == [.streamEnd]

/-- Whether directives or a marker stand before the document. -/
def isExplicit : List Token → Bool
  | .directive _ :: _ | .documentStart :: _ => true
  | _ => false

/-- The tag handles of a document, and the tokens behind its start marker if there is one. -/
def header (tokens : List Token) (fault : Failure) :
    Except Failure (List (String × String) × List Token) :=
  if isExplicit tokens then do
    let (handles, tokens) ← directives tokens false []
    match tokens with
    | .documentStart :: rest => return (handles, rest)
    | [] => throw fault
    | _ => throw Failure.malformed
  else .ok (defaultHandles, tokens)

/-- Whether a document ends where it starts. -/
def endsAtOnce : List Token → Bool
  | .directive _ :: _ | .documentStart :: _ | .documentEnd :: _ | .streamEnd :: _ => true
  | _ => false

def rootNode (explicit : Bool) : Compose NodeId := fun s =>
  if explicit && endsAtOnce s.tokens then .ok s.addEmpty
  else node true false (6 * s.tokens.length + 6) 0 s

/-- Why a text is refused that goes on behind its document. Another document is begun before it is. -/
def unfinished (s : Composer) : Failure :=
  match directives (s.tokens.dropWhile (· == .documentEnd)) false [] with
  | .error f => f
  | .ok (_, rest) => if rest.isEmpty then s.fault else .malformed

/-- The root of the only document of the text; none for a text without a document. -/
def document (tokens : List Token) (fault : Failure) :
    Except Failure (Option (NodeId × Graph)) :=
  if tokens == [.streamEnd] then .ok none
  else do
    let (handles, rest) ← header tokens fault
    let (root, s) ← rootNode (isExplicit tokens) ⟨rest, fault, #[], [], handles⟩
    if isFinished s.tokens then return some (root, s.graph) else throw s.unfinished

end Composer

end CeilingGate.Yaml
