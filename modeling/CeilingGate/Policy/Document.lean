import CeilingGate.Policy.Ceiling
import CeilingGate.Policy.NameKey
import CeilingGate.Validation.Field

/-! Policy documents as they are written: blocks of ceiling texts, at the top and under the keys of
the two override sections. -/
namespace CeilingGate.Policy

open CeilingGate.Validation

/-- The ceiling texts of one block, not yet read as quantities. -/
structure Block where
  texts : Dimensioned (Option RawText)
  isUnlimited : Bool
deriving DecidableEq, Repr

structure Document where
  top : Block
  namespaces : List (RawText × Block)
  names : List (Target × Block)
deriving DecidableEq, Repr

namespace Block

/-- A number that was not quoted counts as its text. -/
def readLimitText (v : Value) : Checked (Option RawText) :=
  match v with
  | .bool _ => .fail (.rejected "expected a quantity, got a boolean")
  | .int i =>
    match Integer.text? i with
    | some s => .ok (some (.plain s))
    | none => .fail (.rejected Integer.digitLimitMessage)
  | .float x => .ok (some (.plain x.text))
  | _ => readOptional readText v

def readDimension (entries : Entries) (d : Dimension) : Checked (Option RawText) :=
  field entries [d.key, d.plainKey] none readLimitText

def ofEntries (entries : Entries) : Checked Block :=
  let texts : Checked (Dimensioned (Option RawText)) :=
    (((((Checked.map Dimensioned.mk (readDimension entries .cpuLimit)).apply
      (readDimension entries .memoryLimit)).apply
      (readDimension entries .cpuRequest)).apply
      (readDimension entries .memoryRequest)).apply
      (readDimension entries .storage))
  (texts.map Block.mk).apply (field entries ["unlimited"] false readBool)

def read (v : Value) : Checked Block :=
  match readRecord "LimitSpec" v with
  | .ok entries => ofEntries entries
  | .error e => .error e

end Block

namespace Document

/-- Keys of namespaces are taken by their texts; of two with one text the last counts. -/
def namespaceKeys (entries : Entries) : Checked Entries :=
  match entries.mapM fun (k, v) => k.text?.map fun t => (t.toValue, v) with
  | some named => .ok (Value.ofEntries named)
  | none => .fail (.rejected Integer.digitLimitMessage)

/-- A section that is empty or missing has no overrides. -/
def readNamespaces (v : Value) : Checked (List (RawText × Block)) :=
  match v with
  | .null => .ok []
  | .dict entries =>
    match namespaceKeys entries with
    | .ok named => readMapping Block.read (.dict named)
    | .error e => .error e
  | _ => .fail .notMapping

/-- The step to the block of a name override. -/
def stepToName (t : Target) : Step :=
  .key ("(" ++ t.name.quoted ++ ", " ++ t.namespaceName.quoted ++ ")")

/-- The targets that the keys of name overrides spell, in document order. -/
def nameKeys : Entries → Except NameKey.Fault (List (Target × Value))
  | entries => do
    let named ← entries.mapM fun (k, v) => do
      let t ← NameKey.read k
      pure (t, v)
    return Keyed.ofList named

def readNameBlocks (named : List (Target × Value)) : Checked (List (Target × Block)) :=
  .all (named.map fun (t, v) =>
    ((Block.read v).map fun b => (t, b) : Checked (Target × Block)).under (stepToName t))

def readNames (v : Value) : Except NameKey.Fault (Checked (List (Target × Block))) :=
  match v with
  | .null => .ok (.ok [])
  | .dict entries =>
    match nameKeys entries with
    | .ok named => .ok (readNameBlocks named)
    | .error (.rejected message) => .ok (.fail (.rejected message))
    | .error .wrongType => .error .wrongType
  | _ => .ok (.fail .notMapping)

/-- The section of name overrides, under either of its keys. -/
def namesField (entries : Entries) : Except NameKey.Fault (Checked (List (Target × Block))) :=
  match named? entries ["customNames", "names"] with
  | none => .ok (.ok [])
  | some (n, v) => (readNames v).map fun c => c.under (.key n)

/-- Reads a document. A key of a name override that cannot be examined ends the work. -/
def ofEntries (entries : Entries) : Except NameKey.Fault (Checked Document) := do
  let names ← namesField entries
  let top := Block.ofEntries entries
  let namespaces := field entries ["customNamespaces", "namespaces"] [] readNamespaces
  return ((Checked.map Document.mk top).apply namespaces).apply names

end Document

end CeilingGate.Policy
