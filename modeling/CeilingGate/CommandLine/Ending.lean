import CeilingGate.Log.Event
import CeilingGate.Stop
import CeilingGate.Value.Text

/-! How commands end: with a code, and with what is logged of a failure. -/
namespace CeilingGate.CommandLine

/-- What kind of thing went wrong. -/
inductive Category
  | general
  | configuration
  | decoding
deriving DecidableEq, Repr

def Category.typeName : Category → String
  | .general => "AdmissionControllerError"
  | .configuration => "ConfigurationError"
  | .decoding => "DecodeError"

def unknownCode : Int := 127

def Category.code : Category → Int
  | .general => unknownCode
  | .configuration => 10
  | .decoding => 12

/-- A failure that commands foresee, with details that name the part in question. -/
structure Failure where
  category : Category
  message : RawText
  details : List (RawText × Value)
deriving Repr

def Failure.detailText (d : RawText × Value) : RawText := d.1 ++ "=" ++ (d.2.text?).getD ""

/-- The message with its details in brackets. -/
def Failure.text (f : Failure) : RawText :=
  if f.details.isEmpty then f.message
  else f.message ++ " (" ++ .intercalate ", " (f.details.map Failure.detailText) ++ ")"

/-- What becomes of the work of a command. Whatever else it ends in is known by its kind and by its
text, which may not be to be had. -/
inductive Outcome
  | done (code : Int)
  | failed (f : Failure)
  | crashed (typeName : String) (text : Except Abort RawText)
  | interrupted
deriving Repr

/-- What is told of a failure. -/
structure Reporting where
  showsTrace : Bool
  logsFailures : Bool
deriving DecidableEq, Repr

def Reporting.standard : Reporting := ⟨false, true⟩

structure Ending where
  code : Int
  isTraced : Bool
  events : List Event
deriving Repr

/-- The log library: it takes an event, or fails. -/
abbrev Logger := Event → Except Abort Unit

/-- The event of a failure is logged with fields of these names. -/
def failureNames : List RawText := ["error_type", "message", "exit_code"]

def failureFields (typeName : String) (message : RawText) (code : Int) : List (RawText × Value) :=
  [("error_type", .text typeName), ("message", message.toValue), ("exit_code", .int code)]

/-- The event of a failure. Its details are further fields, and no name may come twice. -/
def Failure.event (f : Failure) : Except Abort Event :=
  match f.details.find? fun d => failureNames.contains d.1 with
  | some (name, _) => .error (.repeatedName name)
  | none =>
    .ok ⟨.error, "command_error",
      failureFields f.category.typeName f.message f.category.code ++ f.details⟩

def crashEvent (typeName : String) (message : RawText) : Event :=
  ⟨.error, "unexpected_error", failureFields typeName message unknownCode⟩

def interruptEvent : Event := ⟨.info, "command_interrupted", []⟩

/-- The event that is logged of an outcome, if any. -/
def Outcome.event? : Outcome → Option (Except Abort Event)
  | .done _ => none
  | .failed f => some f.event
  | .crashed typeName text => some (text.map (crashEvent typeName))
  | .interrupted => some (.ok interruptEvent)

/-- Logs an outcome; what goes wrong on the way is not caught. -/
def Outcome.log (log : Logger) (o : Outcome) : Except Abort (List Event) :=
  match o.event? with
  | none => .ok []
  | some event => do
    let e ← event
    log e
    return [e]

def Outcome.code : Outcome → Int
  | .done code => code
  | .failed f => f.category.code
  | .crashed _ _ => unknownCode
  | .interrupted => 130

def Outcome.isFailure : Outcome → Bool
  | .failed _ | .crashed _ _ => true
  | _ => false

/-- The ending of an outcome, once it is logged. -/
def conclude (log : Logger) (r : Reporting) (o : Outcome) : Except Abort Ending := do
  let events ← if r.logsFailures then o.log log else .ok []
  return ⟨o.code, r.showsTrace && o.isFailure, events⟩

def Outcome.ofAbort (a : Abort) : Outcome := .crashed a.typeName (.ok a.message)

/-- A failure that leaves no more than a message and details. -/
def Failure.ofDetails (category : Category) (message : RawText)
    (details : List (String × Option RawText)) : Failure :=
  ⟨category, message, details.map fun (k, v?) => (.plain k, .ofText? v?)⟩

end CeilingGate.CommandLine
