import CeilingGate.Json.Writer
import CeilingGate.Keyed
import CeilingGate.Log.Verbosity
import CeilingGate.Text.Sorted
import CeilingGate.Value.Text

/-! Events as lines of a log: as JSON objects, or as texts in columns. -/
namespace CeilingGate.Log

open CeilingGate.Text

abbrev Fields := List (RawText × Value)

/-- The fields of the context come first, with what the event says of them. -/
def fields (context : Fields) (e : Event) : Fields := Keyed.insertAll context e.fields

/-- All that is told of an event, in the order of JSON lines. -/
def record (context : Fields) (time : String) (e : Event) : Fields :=
  Keyed.insertAll (fields context e)
    [("event", .text e.name), ("level", .text e.level.name), ("timestamp", .text time)]

def jsonLine (context : Fields) (time : String) (e : Event) : String :=
  Json.line (.dict ((record context time e).map fun (k, v) => (k.toValue, v)))

def padRight (size : Nat) (s : String) : String :=
  s ++ String.ofList (List.replicate (size - s.length) ' ')

/-- Characters that would blur where a text ends. -/
def isBlurring (c : Char) : Bool :=
  c == ' ' || c == '\t' || c == '=' || c == '\r' || c == '\n' || c == '"' || c == '\''

/-- A field's content; a text is quoted only if it could be misread. -/
def contentText (v : Value) : RawText :=
  match v with
  | .text s => if s.toList.any isBlurring then quoted s else s
  | .brokenText codes =>
    let t := RawText.ofCodes codes
    if t.shape.any isBlurring then t.quoted else t
  | _ => (v.shown?).getD ""

/-- Fields with columns of their own. -/
def isColumn (name : RawText) : Bool :=
  name == .plain "timestamp" || name == .plain "level" || name == .plain "event"

/-- The fields behind the columns, sorted by name. -/
def trailing (fs : Fields) : List RawText :=
  (sortBy (fun a b => decide (a.1 < b.1)) (fs.filter fun f => !isColumn f.1)).map fun (k, v) =>
    k ++ "=" ++ contentText v

def dropEndBlanks (t : RawText) : RawText :=
  t.take (t.shape.reverse.dropWhile (· == ' ')).length

def textLine (context : Fields) (time : String) (e : Event) : RawText :=
  let columns : List RawText := [time, "[" ++ padRight 9 e.level.name ++ "]", padRight 30 e.name]
  dropEndBlanks (.intercalate " " (columns ++ trailing (fields context e)))

/-- The line of an event, if its level is high enough. -/
def line? (least : Int) (format : Format) (context : Fields) (time : String) (e : Event) :
    Option RawText :=
  if rank e.level < least then none
  else
    match format with
    | .text => some (textLine context time e)
    | .json => some (jsonLine context time e)

end CeilingGate.Log
