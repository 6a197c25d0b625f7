import CeilingGate.Policy.Generation
import CeilingGate.Text.Sorted
import CeilingGate.Yaml.Document

/-! Loading policies from texts: all or nothing. -/
namespace CeilingGate.Policy

/-- The text of a policy document, or bytes that encode one. -/
inductive Source
  | text (t : RawText)
  | bytes (bs : List UInt8)
deriving DecidableEq, Repr

/-- A YAML text holds characters only. -/
def Source.value : Source → Except Yaml.Failure Value
  | .text (.plain s) => Yaml.read s.toList
  | .text (.broken _) => .error .malformed
  | .bytes bs => Yaml.readBytes bs

/-- Checks the value of a document against the form of policies. An empty document sets nothing. -/
def readDocument (v : Value) : Except (Stop Fault) Document :=
  match v with
  | .null => readEntries []
  | .dict entries => readEntries entries
  | _ => .error (.fault (.notMapping v.typeName))
where
  readEntries (entries : Validation.Entries) : Except (Stop Fault) Document :=
    match Document.ofEntries entries with
    | .error _ => .error (.abort .wrongType)
    | .ok (.error issues) => .error (.fault (.invalid issues))
    | .ok (.ok d) => .ok d

def generationOf (v : Value) (source? : Option RawText) : Except (Stop Fault) Generation := do
  let d ← readDocument v
  (d.generation source?).mapError .fault

/-- Reads a policy. -/
def parse (s : Source) (source? : Option RawText) : Except (Stop Fault) Generation :=
  match s.value with
  | .error (.abort a) => .error (.abort a)
  | .error cause => .error (.fault (.unreadableYaml cause source?))
  | .ok v => generationOf v source?

/-- Reads the policy of a file, which is known by its path from then on. -/
def load (files : Files) (p : Path) : Except (Stop Fault) Generation :=
  if p.text.toList.contains '\x00' then .error (.abort .badPath)
  else
    match files.readText p with
    | .ok s => parse (.text s) (some (.plain p.text))
    | .error cause => .error (.fault (.unreadableFile (.plain p.text) cause))

namespace Generation

def sortedNamespaces (g : Generation) : List (RawText × Ceiling) :=
  Text.sortBy (fun a b => decide (a.1 < b.1)) g.namespaces

/-- By namespace, then by name. -/
def sortedNames (g : Generation) : List (Target × Ceiling) :=
  Text.sortBy
    (fun a b =>
      decide (a.1.namespaceName < b.1.namespaceName) ||
        (a.1.namespaceName == b.1.namespaceName && decide (a.1.name < b.1.name)))
    g.names

def namespaceValues (g : Generation) : Value :=
  .list (g.sortedNamespaces.map fun (n, _) => n.toValue)

def nameValues (g : Generation) : Value := .list (g.names.map fun (t, _) => t.text.toValue)

/-- A quantity as logs show it. -/
def limitText (c : Ceiling) (d : Dimension) : String := ((c.limit? d).map (·.text)).getD "None"

/-- What is logged when a policy has been read. -/
def parsedEvent (g : Generation) : Event :=
  ⟨.debug, "policy_parsed",
    [("source", .ofText? g.source?), ("namespaces", g.namespaceValues), ("names", g.nameValues),
      ("max_cpu_limit", .text (limitText g.defaults .cpuLimit)),
      ("max_mem_limit", .text (limitText g.defaults .memoryLimit)),
      ("max_pvc_size", .text (limitText g.defaults .storage))]⟩

end Generation

end CeilingGate.Policy
