import CeilingGate.Value.Basic

/-! Structured log events. -/
namespace CeilingGate

inductive Level
  | debug
  | info
  | warning
  | error
deriving DecidableEq, Repr

def Level.name : Level → String
  | .debug => "debug"
  | .info => "info"
  | .warning => "warning"
  | .error => "error"

structure Event where
  level : Level
  name : String
  fields : List (RawText × Value)
deriving Repr

/-- A text, or nothing. -/
def Value.ofText? : Option RawText → Value
  | some t => t.toValue
  | none => .null

end CeilingGate
