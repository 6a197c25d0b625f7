import CeilingGate.Json.Reader
import CeilingGate.Stop
import CeilingGate.Workload.Kind
import CeilingGate.Workload.Name
import CeilingGate.Workload.Object

/-! Snapshots: what a policy looks at in an object. -/
namespace CeilingGate.Workload

open CeilingGate.Validation

/-- What one container declares. -/
structure Declared where
  name : RawText
  cpuRequest? : Option Quantity
  memoryRequest? : Option Quantity
  cpuLimit? : Option Quantity
  memoryLimit? : Option Quantity
deriving DecidableEq, Repr

def Container.declared (c : Container) : Declared :=
  { name := c.name
    cpuRequest? := c.resources.requests.lookup (.plain "cpu")
    memoryRequest? := c.resources.requests.lookup (.plain "memory")
    cpuLimit? := c.resources.limits.lookup (.plain "cpu")
    memoryLimit? := c.resources.limits.lookup (.plain "memory") }

structure Snapshot where
  kind : Kind
  target : Target
  containers : List Declared
  storage? : Option Quantity
deriving DecidableEq, Repr

/-- Why an object cannot be decoded. -/
inductive Fault
  | badEncoding
  | badJson
  | notObject (typeName : String)
  | invalid (kind : Kind) (requested : Target) (issues : List Issue)
deriving DecidableEq, Repr

namespace Fault

/-- The name under which the issues of a kind are reported. -/
def model : Kind → String
  | .pod => "Pod"
  | .cronJob => "CronJob"
  | .volumeClaim => "PersistentVolumeClaim"
  | _ => "TemplatedWorkload"

def rejection (kind : Kind) (issues : List Issue) : Rejection := ⟨model kind, false, issues⟩

def message : Fault → String
  | .badEncoding => "unable to unmarshal json: invalid UTF-8"
  | .badJson => "unable to unmarshal json: the text is not well formed"
  | .notObject typeName => "unable to unmarshal json: expected an object, got " ++ typeName
  | .invalid kind _ issues =>
    "unable to decode " ++ kind.name ++ ": " ++ (rejection kind issues).summary

def details : Fault → List (String × Option RawText)
  | .invalid kind t _ =>
    [("kind", some kind.name), ("name", some t.name), ("namespace", some t.namespaceName)]
  | _ => []

end Fault

/-- The value of a body that was given as a JSON text. -/
def readBody (t : RawText) : Except (Stop Fault) Value :=
  match Json.readRaw Json.bodyDialect t with
  | .ok v => .ok v
  | .error .malformed => .error (.fault .badJson)
  | .error .tooDeep => .error (.abort .tooDeep)
  | .error (.tooManyDigits n) => .error (.abort (.tooManyDigits n))

/-- A body may be given as a value, or as a text or bytes in JSON. -/
def bodyValue (raw : Value) : Except (Stop Fault) Value :=
  match raw with
  | .bytes bs =>
    match Text.ofUtf8? bs with
    | some s => readBody s
    | none => .error (.fault .badEncoding)
  | .text s => readBody s
  | .brokenText codes => readBody (.ofCodes codes)
  | v => .ok v

/-- The object that a body holds; nothing counts as an empty object. -/
def bodyObject (raw : Value) : Except (Stop Fault) Value := do
  match ← bodyValue raw with
  | .null => return .dict []
  | .dict entries => return .dict entries
  | v => throw (.fault (.notObject v.typeName))

/-- A pod that awaits its generated name is judged as one that has it already. -/
def podName (m : Metadata) (name : RawText) : RawText :=
  normaliseRaw (if name.isEmpty && !m.generateName.isEmpty then m.generateName ++ "x" else name)

/-- An object's own name counts before the requested one. -/
def objectName (kind : Kind) (m : Metadata) (requested : RawText) : RawText :=
  let name := if m.name.isEmpty then requested else m.name
  if kind == .pod then podName m name else name

/-- The requested namespace counts before the object's own. -/
def objectNamespace (m : Metadata) (requested : RawText) : RawText :=
  if requested.isEmpty then m.namespaceName else requested

def targetOf (kind : Kind) (m : Metadata) (requested : Target) : Target :=
  ⟨objectName kind m requested.name, objectNamespace m requested.namespaceName⟩

def ofContainers (kind : Kind) (requested : Target) (r : Metadata × List Container) : Snapshot :=
  ⟨kind, targetOf kind r.1 requested, r.2.map Container.declared, none⟩

def ofClaim (requested : Target) (r : Metadata × Resources) : Snapshot :=
  ⟨.volumeClaim, targetOf .volumeClaim r.1 requested, [], r.2.requests.lookup (.plain "storage")⟩

/-- Reads the object of a kind. -/
def readSnapshot (kind : Kind) (requested : Target) (v : Value) : Checked Snapshot :=
  match kind with
  | .unrecognised => .ok ⟨.unrecognised, requested, [], none⟩
  | .volumeClaim => (readVolumeClaim v).map (ofClaim requested)
  | .pod => (readPod v).map (ofContainers .pod requested)
  | .cronJob => (readCronJob v).map (ofContainers .cronJob requested)
  | _ => (readTemplated v).map (ofContainers kind requested)

/-- Decodes a body. Objects of unrecognised kinds are not looked at. -/
def decode (kind : Kind) (raw : Value) (requested : Target) : Except (Stop Fault) Snapshot :=
  if kind == .unrecognised then .ok ⟨.unrecognised, requested, [], none⟩
  else do
    let v ← bodyObject raw
    match readSnapshot kind requested v with
    | .ok s => return s
    | .error issues => throw (stopOf (.invalid kind requested) issues)

end CeilingGate.Workload
