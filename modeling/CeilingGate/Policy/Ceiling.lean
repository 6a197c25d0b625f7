import CeilingGate.Quantity.Basic

/-! Ceilings: the most that a workload may request or be limited to, in five dimensions. -/
namespace CeilingGate.Policy

inductive Dimension
  | cpuLimit
  | memoryLimit
  | cpuRequest
  | memoryRequest
  | storage
deriving DecidableEq, Repr

namespace Dimension

/-- In the order in which blocks are read and shown. -/
def all : List Dimension := [cpuLimit, memoryLimit, cpuRequest, memoryRequest, storage]

/-- The key of a dimension in a policy document. -/
def key : Dimension → String
  | cpuLimit => "maxCPULimit"
  | memoryLimit => "maxMemLimit"
  | cpuRequest => "maxCPURequest"
  | memoryRequest => "maxMemRequest"
  | storage => "maxPVCSize"

/-- The second spelling of the key. -/
def plainKey : Dimension → String
  | cpuLimit => "max_cpu_limit"
  | memoryLimit => "max_mem_limit"
  | cpuRequest => "max_cpu_request"
  | memoryRequest => "max_mem_request"
  | storage => "max_pvc_size"

end Dimension

/-- One value for each dimension. -/
structure Dimensioned (α : Type) where
  cpuLimit : α
  memoryLimit : α
  cpuRequest : α
  memoryRequest : α
  storage : α
deriving DecidableEq, Repr

namespace Dimensioned

variable {α β ε : Type}

def get (x : Dimensioned α) : Dimension → α
  | .cpuLimit => x.cpuLimit
  | .memoryLimit => x.memoryLimit
  | .cpuRequest => x.cpuRequest
  | .memoryRequest => x.memoryRequest
  | .storage => x.storage

def ofFunction (f : Dimension → α) : Dimensioned α :=
  ⟨f .cpuLimit, f .memoryLimit, f .cpuRequest, f .memoryRequest, f .storage⟩

/-- All results, or the failure of the first dimension that has one. -/
def collect (f : Dimension → Except ε α) : Except ε (Dimensioned α) := do
  let cpuLimit ← f .cpuLimit
  let memoryLimit ← f .memoryLimit
  let cpuRequest ← f .cpuRequest
  let memoryRequest ← f .memoryRequest
  let storage ← f .storage
  return ⟨cpuLimit, memoryLimit, cpuRequest, memoryRequest, storage⟩

@[simp] theorem get_ofFunction (f : Dimension → α) (d : Dimension) : (ofFunction f).get d = f d := by
  cases d <;> rfl

end Dimensioned

/-- A dimension without a quantity has no ceiling. A ceiling that is `unlimited` allows everything,
whatever its quantities are. -/
structure Ceiling where
  limits : Dimensioned (Option Quantity)
  isUnlimited : Bool
deriving DecidableEq, Repr

namespace Ceiling

/-- No ceiling in any dimension. -/
def empty : Ceiling := ⟨.ofFunction fun _ => none, false⟩

def unlimited : Ceiling := ⟨.ofFunction fun _ => none, true⟩

def limit? (c : Ceiling) (d : Dimension) : Option Quantity := c.limits.get d

end Ceiling

end CeilingGate.Policy
