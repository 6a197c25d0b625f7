import CeilingGate.Admission.Check
import CeilingGate.Admission.Metrics
import CeilingGate.Policy.Generation
import CeilingGate.Review.Basic

/-! Decisions on admission requests under one generation of the policy. -/
namespace CeilingGate.Admission

open CeilingGate.Policy CeilingGate.Workload

/-- The operations whose objects are checked. -/
def isChecked (operation : RawText) : Bool := operation == .plain "CREATE" || operation == .plain "UPDATE"

/-- A decision: the workload's target and violation if it is denied, nothing if it is allowed. -/
structure Denial where
  kind : Kind
  target : Target
  violation : Violation
deriving DecidableEq, Repr

def requestedTarget (r : Request) : Target := ⟨r.name, r.namespaceName⟩

/-- Decides on a snapshot. -/
def judge (g : Generation) (s : Snapshot) : Option Denial :=
  (checkSnapshot (g.resolve s.target) s).map fun v => ⟨s.kind, s.target, v⟩

/-- Decides on a request. Other operations and kinds are allowed without a look at the object. -/
def decide (g : Generation) (r : Request) : Except (Stop Workload.Fault) (Option Denial) :=
  if !isChecked r.operation then .ok none
  else
    let kind := Kind.ofName r.kind.kind
    if kind == .unrecognised then .ok none
    else (decode kind r.object (requestedTarget r)).map (judge g)

/-- What handling one request has led to. -/
structure Handling where
  result : Except (Stop Workload.Fault) Response
  counts : Metrics
  events : List Event

def denialEvent (r : Request) (d : Denial) : Event :=
  ⟨.info, "admission_denied",
    [("kind", .text d.kind.name), ("name", d.target.name.toValue),
      ("namespace", d.target.namespaceName.toValue), ("user", r.userInfo.username.toValue),
      ("reason", d.violation.message.toValue)]⟩

def faultEvent (r : Request) (f : Workload.Fault) : Event :=
  ⟨.error, "unable_to_handle_request",
    [("uid", r.uid.toValue), ("kind", r.kind.kind.toValue), ("namespace", r.namespaceName.toValue),
      ("error", .text f.message)]⟩

/-- The response to a request that could be decided. -/
def respond (r : Request) (d? : Option Denial) : Response :=
  ⟨r.uid, d?.isNone, d?.map fun d => ⟨d.violation.message, none⟩⟩

/-- Answers a request. Each answer and each object that cannot be decoded is counted once. -/
def handle (g : Generation) (r : Request) : Handling :=
  match decide g r with
  | .ok d? =>
    { result := .ok (respond r d?)
      counts := .ofDecision d?.isNone
      events := (d?.map (denialEvent r)).toList }
  | .error (.fault f) => ⟨.error (.fault f), .oneError, [faultEvent r f]⟩
  | .error (.abort a) => ⟨.error (.abort a), .zero, []⟩

end CeilingGate.Admission
