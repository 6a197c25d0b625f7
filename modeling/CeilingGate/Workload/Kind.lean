import CeilingGate.Text.Raw

/-! The kinds of objects that are checked. -/
namespace CeilingGate.Workload

inductive Kind
  | pod
  | deployment
  | statefulSet
  | daemonSet
  | job
  | cronJob
  | volumeClaim
  | unrecognised
deriving DecidableEq, Repr

namespace Kind

def name : Kind → String
  | pod => "Pod"
  | deployment => "Deployment"
  | statefulSet => "StatefulSet"
  | daemonSet => "DaemonSet"
  | job => "Job"
  | cronJob => "CronJob"
  | volumeClaim => "PersistentVolumeClaim"
  | unrecognised => "Unrecognized"

def all : List Kind :=
  [pod, deployment, statefulSet, daemonSet, job, cronJob, volumeClaim, unrecognised]

/-- Any other name is one of an unrecognised kind. -/
def ofName (s : RawText) : Kind := (all.find? fun k => .plain k.name == s).getD unrecognised

theorem name_ofName {s : RawText} (h : ofName s ≠ unrecognised) : .plain (ofName s).name = s := by
  unfold ofName at h ⊢
  cases hf : all.find? fun k => .plain k.name == s with
  | none => simp [hf] at h
  | some k => simpa [hf] using List.find?_some hf

/-- Whether the objects of a kind run containers. -/
def hasContainers : Kind → Bool
  | volumeClaim | unrecognised => false
  | _ => true

def isStorage (k : Kind) : Bool := k == volumeClaim

/-- Objects that are checked either ask for storage or run containers. -/
theorem claim_or_containers {k : Kind} (h : k ≠ unrecognised) :
    k = volumeClaim ∨ (k.hasContainers = true ∧ k.isStorage = false) := by
  cases k <;> simp_all [hasContainers, isStorage]

end Kind

end CeilingGate.Workload
