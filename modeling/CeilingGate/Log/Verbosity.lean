import CeilingGate.Log.Event
import CeilingGate.Text.LowerCase

/-! How much is logged, and in which form. -/
namespace CeilingGate.Log

/-- The least level that is logged, by the names that settings use. -/
inductive Verbosity
  | error
  | warn
  | info
  | debug
deriving DecidableEq, Repr

inductive Format
  | text
  | json
deriving DecidableEq, Repr

def Verbosity.all : List Verbosity := [.error, .warn, .info, .debug]

def Verbosity.name : Verbosity → String
  | .error => "error"
  | .warn => "warn"
  | .info => "info"
  | .debug => "debug"

def Verbosity.ofName? (name : String) : Option Verbosity := all.find? fun v => v.name == name

def Format.name : Format → String
  | .text => "text"
  | .json => "json"

def Format.ofName? (name : String) : Option Format :=
  [Format.text, .json].find? fun f => f.name == name

/-- The rank of a level: ten for the lowest, and ten more for each one above. -/
def rank : Level → Int
  | .debug => 10
  | .info => 20
  | .warning => 30
  | .error => 40

def Verbosity.level : Verbosity → Level
  | .error => .error
  | .warn => .warning
  | .info => .info
  | .debug => .debug

/-- The least rank that a name asks for, in any case of letters; an unknown name asks for `info`. -/
def leastRank (name : String) : Int :=
  rank (((Verbosity.ofName? (Text.lower name)).map (·.level)).getD .info)

end CeilingGate.Log
