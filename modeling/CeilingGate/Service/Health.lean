import CeilingGate.Policy.Store
import CeilingGate.Service.Answer

/-! The health report: a fixed pod is put through the engine, and the active policy is named. -/
namespace CeilingGate.Service

def version : String := "0.1.0"

def healthUid : String := "e911857d-c318-11e8-bbad-025000000001"

/-- A pod without containers passes every policy. -/
def healthRequest : Request :=
  { uid := healthUid
    kind := { ObjectKind.empty with kind := "Pod" }
    operation := "CREATE"
    name := ""
    namespaceName := ""
    object := .record
      [("metadata", .record
        [("name", .text "test"), ("uid", .text healthUid),
          ("creationTimestamp", .text "2018-09-28T12:20:39Z")])]
    userInfo := .empty
    dryRun? := none }

/-- What the store says of the active policy. -/
structure PolicyReport where
  number : Nat
  source? : Option RawText
deriving DecidableEq, Repr

def PolicyReport.ofStore (s : Policy.Store) : PolicyReport := ⟨s.number, s.current.source?⟩

structure Health where
  policy? : Option PolicyReport
  problem? : Option String
deriving DecidableEq, Repr

def problemOf (verdict : Verdict) : Except Abort (Option String) :=
  match verdict.result with
  | .ok response => .ok (if response.isAllowed then none else some "error request not allowed")
  | .error (.fault message) => .ok (some message)
  | .error (.abort a) => .error a

def unhealthyEvent (problem : String) : Event :=
  ⟨.warning, "healthcheck_failed", [("detail", .text problem)]⟩

/-- Whether the policy has been loaded at some time is told, not when. -/
def Health.toValue (h : Health) : Value :=
  .record
    [("status", .text (if h.problem?.isNone then "healthy" else "unhealthy")),
      ("version", .text version),
      ("generation", ((h.policy?.map fun p => Value.int p.number)).getD .null),
      ("policy_source", .ofText? (h.policy?.bind (·.source?))),
      ("policy_loaded_at", .bool h.policy?.isSome),
      ("detail", .ofText? (h.problem?.map .plain))]

end CeilingGate.Service
