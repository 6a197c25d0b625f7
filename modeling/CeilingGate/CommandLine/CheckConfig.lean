import CeilingGate.CommandLine.Work

/-! Checking a policy: its ceilings are shown as the service would apply them, in a table with one row for
the defaults and one for each override. -/
namespace CeilingGate

namespace Policy

/-- The quantity of a dimension, or a dash. -/
def Ceiling.cell (c : Ceiling) (d : Dimension) : RawText := ((c.limit? d).map (·.text)).getD "-"

def Ceiling.row (c : Ceiling) (title : RawText) : List RawText :=
  title :: Dimension.all.map fun d => if c.isUnlimited then "unlimited" else c.cell d

namespace Generation

def headings : List RawText :=
  ["Target", "CPU limit", "Memory limit", "CPU request", "Memory request", "PVC size"]

/-- The rows: the defaults first, then overrides by namespace, then overrides by namespace and
name. -/
def rows (g : Generation) : List (List RawText) :=
  g.defaults.row "global" ::
    (g.sortedNamespaces.map fun (n, c) => c.row ("namespace " ++ n)) ++
    (g.sortedNames.map fun (t, c) => c.row (t.namespaceName ++ "/" ++ t.name))

end Generation

end Policy

namespace CommandLine

/-- A text in a style. -/
def styled (style text : RawText) : RawText := "[" ++ style ++ "]" ++ text ++ "[/" ++ style ++ "]"

def policyReport (path : RawText) (g : Policy.Generation) : List Printout :=
  [.blank, .panel (styled "bold" ("Policy: " ++ path)),
    .table "Resolved ceilings" Policy.Generation.headings g.rows,
    .line (styled "success" "✓ policy document is valid")]

/-- A policy that cannot be loaded is a result of the check, and is not logged. -/
def checkConfig (console : Console) (files : Files) (path : String) : Work :=
  match Policy.load files (.ofText path) with
  | .ok g => .printing console (.done 0) (policyReport path g) [g.parsedEvent]
  | .error (.fault f) =>
    let failure := policyFailure f
    .printing console (.done failure.category.code) [.line (styled "error" ("✗ " ++ failure.text))] []
  | .error (.abort a) => .ending (.ofAbort a) []

end CommandLine

end CeilingGate
