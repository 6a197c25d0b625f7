import CeilingGate.Policy.Ceiling
import CeilingGate.Workload.Snapshot

/-! Checks of what a workload declares against a ceiling. The first violation is the verdict. -/
namespace CeilingGate.Admission

open CeilingGate.Policy CeilingGate.Workload

/-- The resources that containers are checked for. -/
inductive Resource
  | cpu
  | memory
deriving DecidableEq, Repr

namespace Resource

def name : Resource → String
  | cpu => "CPU"
  | memory => "Memory"

def requestDimension : Resource → Dimension
  | cpu => .cpuRequest
  | memory => .memoryRequest

def limitDimension : Resource → Dimension
  | cpu => .cpuLimit
  | memory => .memoryLimit

end Resource

def request? (c : Declared) : Resource → Option Quantity
  | .cpu => c.cpuRequest?
  | .memory => c.memoryRequest?

def limit? (c : Declared) : Resource → Option Quantity
  | .cpu => c.cpuLimit?
  | .memory => c.memoryLimit?

/-- What a workload is denied for. -/
inductive Violation
  | requestMissing (container : RawText) (resource : Resource)
  | requestTooLarge (container : RawText) (resource : Resource) (declared ceiling : Quantity)
  | limitTooLarge (container : RawText) (resource : Resource) (declared ceiling : Quantity)
  | claimTooLarge (claim : RawText) (size ceiling : Quantity)
deriving DecidableEq, Repr

def Violation.message : Violation → RawText
  | requestMissing container r =>
    "error container " ++ container ++ " requests." ++ r.name ++ " is empty, must be set"
  | requestTooLarge container r declared ceiling =>
    "error container " ++ container ++ " requests." ++ r.name ++ ": " ++ declared.text ++ " > " ++
      ceiling.text
  | limitTooLarge container r declared ceiling =>
    "error container " ++ container ++ " limits." ++ r.name ++ ": " ++ declared.text ++ " > " ++
      ceiling.text
  | claimTooLarge claim size ceiling =>
    "error persistentVolumeClaim " ++ claim ++ " size is " ++ size.text ++ " > " ++ ceiling.text

def checkPresent (c : Declared) (r : Resource) : Option Violation :=
  match request? c r with
  | none => some (.requestMissing c.name r)
  | some _ => none

/-- A declared request may not exceed its ceiling. -/
def checkRequest (c : Declared) (ceiling : Ceiling) (r : Resource) : Option Violation :=
  match request? c r, ceiling.limit? r.requestDimension with
  | some declared, some most =>
    if declared.gt most then some (.requestTooLarge c.name r declared most) else none
  | _, _ => none

/-- A limit may not exceed its ceiling; one that is not declared counts as zero. -/
def checkLimit (c : Declared) (ceiling : Ceiling) (r : Resource) : Option Violation :=
  match ceiling.limit? r.limitDimension with
  | some most =>
    let declared := (limit? c r).getD .zero
    if declared.gt most then some (.limitTooLarge c.name r declared most) else none
  | none => none

/-- The checks of one container, in the order in which they are made. -/
def checks (ceiling : Ceiling) (c : Declared) : List (Option Violation) :=
  [checkPresent c .cpu, checkPresent c .memory, checkRequest c ceiling .cpu,
    checkRequest c ceiling .memory, checkLimit c ceiling .cpu, checkLimit c ceiling .memory]

def checkContainer (ceiling : Ceiling) (c : Declared) : Option Violation :=
  (checks ceiling c).findSome? id

/-- The first violation of the first container that has one. -/
def checkContainers (ceiling : Ceiling) (cs : List Declared) : Option Violation :=
  if ceiling.isUnlimited then none else cs.findSome? (checkContainer ceiling)

/-- The requested size of a volume claim; one without a size passes. -/
def checkStorage (ceiling : Ceiling) (claim : RawText) (size? : Option Quantity) : Option Violation :=
  if ceiling.isUnlimited then none
  else
    match ceiling.limit? .storage, size? with
    | some most, some size => if size.gt most then some (.claimTooLarge claim size most) else none
    | _, _ => none

/-- Checks a workload against the ceiling that applies to it. -/
def checkSnapshot (ceiling : Ceiling) (s : Snapshot) : Option Violation :=
  if ceiling.isUnlimited then none
  else if s.kind.isStorage then checkStorage ceiling s.target.name s.storage?
  else if s.kind.hasContainers then checkContainers ceiling s.containers
  else none

end CeilingGate.Admission
