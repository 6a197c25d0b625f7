import CeilingGate.Quantity.Reader
import CeilingGate.Validation.Field

/-! The parts of object bodies that are checked. Every part may be missing and then is empty; whatever
else a body holds is passed over. -/
namespace CeilingGate.Workload

open CeilingGate.Validation

structure Metadata where
  name : RawText
  generateName : RawText
  namespaceName : RawText
deriving DecidableEq, Repr

def Metadata.empty : Metadata := ⟨"", "", ""⟩

/-- Quantities under the names of resources. -/
structure Resources where
  limits : List (RawText × Quantity)
  requests : List (RawText × Quantity)
deriving DecidableEq, Repr

def Resources.empty : Resources := ⟨[], []⟩

structure Container where
  name : RawText
  resources : Resources
deriving DecidableEq, Repr

/-- Reads a record that is fully described by one field. -/
def readVia {α : Type} (model : String) (names : List String) (absent : α)
    (read : Value → Checked α) (v : Value) : Checked α :=
  match readRecord model v with
  | .ok entries => field entries names absent read
  | .error e => .error e

def readMetadata (v : Value) : Checked Metadata :=
  match readRecord "ObjectMeta" v with
  | .ok entries =>
    ((Checked.map Metadata.mk (field entries ["name"] "" readText)).apply
      (field entries ["generateName", "generate_name"] "" readText)).apply
      (field entries ["namespace"] "" readText)
  | .error e => .error e

def readQuantity (v : Value) : Checked Quantity :=
  match Quantity.ofValue v with
  | .ok q => .ok q
  | .error fault =>
    match fault.abort? with
    | some a => .fail (.aborted a)
    | none => .fail (.rejected fault.message)

def readResources (v : Value) : Checked Resources :=
  match readRecord "ResourceRequirements" v with
  | .ok entries =>
    (Checked.map Resources.mk (field entries ["limits"] [] (readMapping readQuantity))).apply
      (field entries ["requests"] [] (readMapping readQuantity))
  | .error e => .error e

def readContainer (v : Value) : Checked Container :=
  match readRecord "Container" v with
  | .ok entries =>
    (Checked.map Container.mk (field entries ["name"] "" readText)).apply
      (field entries ["resources"] .empty readResources)
  | .error e => .error e

/-- The containers of a pod. -/
def readPodSpec : Value → Checked (List Container) :=
  readVia "PodSpec" ["containers"] [] (readList readContainer)

/-- Metadata and whatever the specification holds. -/
def readObject {α : Type} (model : String) (absent : α) (readSpec : Value → Checked α) (v : Value) :
    Checked (Metadata × α) :=
  match readRecord model v with
  | .ok entries =>
    (Checked.map Prod.mk (field entries ["metadata"] .empty readMetadata)).apply
      (field entries ["spec"] absent readSpec)
  | .error e => .error e

def readPod : Value → Checked (Metadata × List Container) := readObject "Pod" [] readPodSpec

/-- A template's metadata is checked but not used. -/
def readPodTemplate (v : Value) : Checked (List Container) :=
  (readObject "PodTemplateSpec" [] readPodSpec v).map (·.2)

def readTemplatedSpec : Value → Checked (List Container) :=
  readVia "TemplatedSpec" ["template"] [] readPodTemplate

/-- An object that runs pods from a template. -/
def readTemplated : Value → Checked (Metadata × List Container) :=
  readObject "TemplatedWorkload" [] readTemplatedSpec

def readJobTemplate : Value → Checked (List Container) :=
  readVia "JobTemplateSpec" ["spec"] [] readTemplatedSpec

def readCronJob : Value → Checked (Metadata × List Container) :=
  readObject "CronJob" [] (readVia "CronJobSpec" ["jobTemplate", "job_template"] [] readJobTemplate)

def readVolumeClaim : Value → Checked (Metadata × Resources) :=
  readObject "PersistentVolumeClaim" .empty
    (readVia "PersistentVolumeClaimSpec" ["resources"] .empty readResources)

end CeilingGate.Workload
