import CeilingGate.Stop

/-! What can be wrong with a part of supplied data, and where that part stands. -/
namespace CeilingGate.Validation

/-- A step from a collection to one of its parts. -/
inductive Step
  | key (name : String)
  | index (position : Int)
deriving DecidableEq, Repr

inductive Cause
  | notText
  | badEncoding
  | notBool
  | unknownBool
  | notInt
  | unreadableInt
  | fractionalInt
  | oversizedInt
  | infiniteInt
  | notMapping
  | notList
  | notRecord (model : String)
  | missing
  | unexpected
  | rejected (reason : RawText)
  | aborted (a : Abort)
  | notJson
deriving DecidableEq, Repr

structure Issue where
  path : List Step
  cause : Cause
deriving DecidableEq, Repr

def Cause.name : Cause → String
  | .notText => "string_type"
  | .badEncoding => "string_unicode"
  | .notBool => "bool_type"
  | .unknownBool => "bool_parsing"
  | .notInt => "int_type"
  | .unreadableInt => "int_parsing"
  | .fractionalInt => "int_from_float"
  | .oversizedInt => "int_parsing_size"
  | .infiniteInt => "finite_number"
  | .notMapping => "dict_type"
  | .notList => "list_type"
  | .notRecord _ => "model_type"
  | .missing => "missing"
  | .unexpected => "extra_forbidden"
  | .rejected _ => "value_error"
  | .aborted a => a.typeName
  | .notJson => "json_invalid"

/-- The message for data given as values, or read from a JSON text. -/
def Cause.message (fromText : Bool) : Cause → RawText
  | .notText => "Input should be a valid string"
  | .badEncoding => "Input should be a valid string, unable to parse raw data as a unicode string"
  | .notBool => "Input should be a valid boolean"
  | .unknownBool => "Input should be a valid boolean, unable to interpret input"
  | .notInt => "Input should be a valid integer"
  | .unreadableInt => "Input should be a valid integer, unable to parse string as an integer"
  | .fractionalInt => "Input should be a valid integer, got a number with a fractional part"
  | .oversizedInt => "Unable to parse input string as an integer, exceeded maximum size"
  | .infiniteInt => "Input should be a finite number"
  | .notMapping => if fromText then "Input should be an object" else "Input should be a valid dictionary"
  | .notList => if fromText then "Input should be a valid array" else "Input should be a valid list"
  | .notRecord model =>
    if fromText then "Input should be an object"
    else "Input should be a valid dictionary or instance of " ++ model
  | .missing => "Field required"
  | .unexpected => "Extra inputs are not permitted"
  | .rejected reason => "Value error, " ++ reason
  | .aborted a => a.message
  | .notJson => "Invalid JSON"

/-- The abort behind an issue: one of the check itself, or of telling a reason that is no valid text. -/
def Cause.abort? : Cause → Option Abort
  | .aborted a => some a
  | .rejected (.broken t) => some (.unencodable t)
  | _ => none

def firstAbort? (issues : List Issue) : Option Abort := issues.findSome? fun i => i.cause.abort?

/-- Issues make a fault, unless one of them is an abort; the first abort ends the reading. -/
def stopOf {Fault : Type} (fault : List Issue → Fault) (issues : List Issue) : Stop Fault :=
  match firstAbort? issues with
  | some a => .abort a
  | none => .fault (fault issues)

/-- All issues of one input, under the name of what it should have been. -/
structure Rejection where
  title : String
  fromText : Bool
  issues : List Issue
deriving DecidableEq, Repr

/-- The first line of a rejection's text. -/
def Rejection.summary (r : Rejection) : String :=
  toString r.issues.length ++ " validation error" ++ (if r.issues.length == 1 then "" else "s") ++
    " for " ++ r.title

end CeilingGate.Validation
