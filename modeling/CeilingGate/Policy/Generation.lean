import CeilingGate.Log.Event
import CeilingGate.Policy.Fault

/-! Generations: policies with all quantities read and all inheritance applied. -/
namespace CeilingGate.Policy

/-- Overrides already carry what they inherit, so looking up is all that is left to do. -/
structure Generation where
  defaults : Ceiling
  names : List (Target × Ceiling)
  namespaces : List (RawText × Ceiling)
  source? : Option RawText
deriving DecidableEq, Repr

namespace Generation

def empty : Generation := ⟨.empty, [], [], none⟩

/-- The entry that applies: the one for the target, else the one for its namespace, else the
defaults. -/
def entry (g : Generation) (t : Target) : Ceiling :=
  match g.names.lookup t with
  | some c => c
  | none => (g.namespaces.lookup t.namespaceName).getD g.defaults

/-- The ceiling of a target; nothing is left of an entry that is unlimited. -/
def resolve (g : Generation) (t : Target) : Ceiling :=
  let c := g.entry t
  if c.isUnlimited then .unlimited else c

def isExcluded (g : Generation) (t : Target) : Bool := (g.resolve t).isUnlimited

end Generation

/-- Requests that the top block leaves open may not exceed zero. -/
def topDefault : Dimension → Option Quantity
  | .cpuRequest | .memoryRequest => some .zero
  | _ => none

/-- The text of a dimension, unless it is missing or blank. -/
def Block.text? (b : Block) (d : Dimension) : Option RawText :=
  (b.texts.get d).filter fun t => !t.strip.isEmpty

def readLimit (d : Dimension) (place : Place) (text : RawText) : Except Fault Quantity :=
  match Quantity.ofRaw text with
  | .error cause => .error (.badQuantity d place text cause)
  | .ok q => if q.isNegative then .error (.negative d place text) else .ok q

/-- The ceiling of a block. What it leaves open it takes from the ceiling it inherits, or, at the top,
from the defaults. -/
def Block.ceiling (b : Block) (place : Place) (inherited : Dimension → Option Quantity) :
    Except Fault Ceiling := do
  let limits ← Dimensioned.collect fun d =>
    match b.text? d with
    | some text => (readLimit d place text).map some
    | none => .ok (inherited d)
  return ⟨limits, b.isUnlimited⟩

/-- Builds a generation, reading blocks in document order. -/
def Document.generation (d : Document) (source? : Option RawText) : Except Fault Generation := do
  let defaults ← d.top.ceiling .top topDefault
  let namespaces ← d.namespaces.mapM fun (name, b) => do
    let c ← b.ceiling (.ofNamespace name) defaults.limit?
    return (name, c)
  let names ← d.names.mapM fun (t, b) => do
    let c ← b.ceiling (.ofName t) defaults.limit?
    return (t, c)
  return ⟨defaults, names, namespaces, source?⟩

end CeilingGate.Policy
