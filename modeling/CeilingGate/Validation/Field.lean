import CeilingGate.Keyed
import CeilingGate.Text.LowerCase
import CeilingGate.Text.Basic
import CeilingGate.Validation.Issue
import CeilingGate.Value.Key
import CeilingGate.Value.Text

/-! Reading typed data out of dynamic values. All parts are read, and the issues of all of them are
reported in order. -/
namespace CeilingGate.Validation

/-- A result, or at least one issue. -/
abbrev Checked (α : Type) := Except (List Issue) α

namespace Checked

variable {α β : Type}

def fail (cause : Cause) : Checked α := .error [⟨[], cause⟩]

def map (f : α → β) (c : Checked α) : Checked β := Except.map f c

/-- Applies a checked function; issues of both sides are kept. -/
def apply (f : Checked (α → β)) (a : Checked α) : Checked β :=
  match f, a with
  | .ok f, .ok a => .ok (f a)
  | .error e, .ok _ => .error e
  | .ok _, .error e => .error e
  | .error e, .error e' => .error (e ++ e')

/-- The first abort among the issues ends the reading. -/
def settle (c : Checked α) : Except Abort (Checked α) :=
  match c with
  | .ok a => .ok (.ok a)
  | .error issues =>
    match firstAbort? issues with
    | some a => .error a
    | none => .ok (.error issues)

/-- The same result seen from one collection further out. -/
def under (step : Step) (c : Checked α) : Checked α :=
  c.mapError fun issues => issues.map fun i => { i with path := step :: i.path }

/-- All results, or all issues. -/
def all : List (Checked α) → Checked (List α)
  | [] => .ok []
  | c :: rest => (map List.cons c).apply (all rest)

end Checked

abbrev Entries := List (Value × Value)

/-- The first of the names that is a key, with its content. -/
def named? (entries : Entries) (names : List String) : Option (String × Value) :=
  names.findSome? fun n => (Value.find? entries n).map (n, ·)

/-- A field of a record, which may be written under any of its names. -/
def field {α : Type} (entries : Entries) (names : List String) (absent : α)
    (read : Value → Checked α) : Checked α :=
  match named? entries names with
  | some (n, v) => (read v).under (.key n)
  | none => .ok absent

def requiredField {α : Type} (entries : Entries) (name : String) (read : Value → Checked α) :
    Checked α :=
  match named? entries [name] with
  | some (n, v) => (read v).under (.key n)
  | none => (Checked.fail .missing : Checked α).under (.key name)

def readText : Value → Checked RawText
  | .text s => .ok s
  | .brokenText codes => .ok (.ofCodes codes)
  | .bytes bs =>
    match Text.ofUtf8? bs with
    | some s => .ok (.plain s)
    | none => .fail .badEncoding
  | _ => .fail .notText

def boolOfText? (s : String) : Option Bool :=
  let small := String.ofList (s.toList.map Numeral.smallAscii)
  if ["0", "off", "f", "false", "n", "no"].contains small then some false
  else if ["1", "on", "t", "true", "y", "yes"].contains small then some true
  else none

def wordEnd : Int := 2 ^ (63 : Nat)

/-- Whether an integer fits into 64 bits with a sign. -/
def fitsWord (i : Int) : Bool := -wordEnd ≤ i && i < wordEnd

def boolOfInt (i : Int) : Checked Bool :=
  if i == 0 then .ok false
  else if i == 1 then .ok true
  else .fail .unknownBool

def boolOfText (s : String) : Checked Bool :=
  match boolOfText? s with
  | some b => .ok b
  | none => .fail .unknownBool

def boolOfFloat (x : Binary64) : Checked Bool :=
  match x.toInt? with
  | some i => if fitsWord i && i != -wordEnd then boolOfInt i else .fail .notBool
  | none => .fail .notBool

/-- Truth values, and the numbers and words that stand for them. -/
def readBool : Value → Checked Bool
  | .bool b => .ok b
  | .text s => boolOfText s
  | .bytes bs =>
    match Text.ofUtf8? bs with
    | some s => boolOfText s
    | none => .fail .unknownBool
  | .brokenText _ => .fail .badEncoding
  | .int i => if fitsWord i then boolOfInt i else .fail .notBool
  | .float x => boolOfFloat x
  | .decimal (.number d) => boolOfFloat (.ofDecimal d.negative d.coefficient d.exponent)
  | _ => .fail .notBool

/-- The integer that a text of digits writes; a fraction of zeros is allowed. -/
def intOfText (s : String) : Checked Int :=
  let trimmed := Text.stripEnd (Text.stripStart s.toList)
  let (body, fraction) := trimmed.span (· != '.')
  let zeros :=
    match fraction with
    | [] => true
    | _ :: zs => !zs.isEmpty && zs.all (· == '0')
  let plain := body.all fun c => c.isDigit || c == '_' || c == '-' || c == '+'
  match Integer.parse? 10 body with
  | some i => if zeros && plain then .ok i else .fail .unreadableInt
  | none =>
    if body.length > Integer.digitLimit then .fail .oversizedInt else .fail .unreadableInt

def readInt : Value → Checked Int
  | .bool b => .ok b.toNat
  | .int i => .ok i
  | .text s => intOfText s
  | .brokenText _ => .fail .badEncoding
  | .float (.finite s m e) =>
    match (Binary64.finite s m e).toInt? with
    | some i => if fitsWord i && i != -wordEnd then .ok i else .fail .oversizedInt
    | none => .fail .fractionalInt
  | .float _ => .fail .infiniteInt
  | _ => .fail .notInt

/-- Nothing, or a value. -/
def readOptional {α : Type} (read : Value → Checked α) : Value → Checked (Option α)
  | .null => .ok none
  | v => (read v).map some

def readListFrom {α : Type} (read : Value → Checked α) (position : Nat) (vs : List Value) :
    Checked (List α) :=
  match vs with
  | [] => .ok []
  | v :: rest =>
    (((read v).under (.index position)).map List.cons).apply
      (readListFrom read (position + 1) rest)

def readList {α : Type} (read : Value → Checked α) : Value → Checked (List α)
  | .list vs | .tuple vs | .set vs => readListFrom read 0 vs
  | _ => .fail .notList

/-- The entries of a record. -/
def readRecord (model : String) : Value → Checked Entries
  | .dict entries => .ok entries
  | _ => .fail (.notRecord model)

/-- The characters of a code in a step; half of a pair is shown as the three bytes it would take. -/
def stepChars (code : Nat) : List Char :=
  if Text.isHalfCode code then ['\ufffd', '\ufffd', '\ufffd'] else [Char.ofNat code]

/-- The step to the content of a key. -/
def stepTo : Value → Step
  | .text s => .key s
  | .brokenText codes => .key (String.ofList (codes.flatMap stepChars))
  | .bool b => .index b.toNat
  | .int i => if fitsWord i then .index i else .key (toString i)
  | v => .key ((Value.shown? v).getD v.typeName)

/-- One entry of a mapping whose keys are texts. -/
def readEntry {α : Type} (read : Value → Checked α) (entry : Value × Value) :
    Checked (RawText × α) :=
  let key := (readText entry.1).under (.key "[key]")
  ((key.map Prod.mk).apply (read entry.2)).under (stepTo entry.1)

def readMapping {α : Type} (read : Value → Checked α) : Value → Checked (List (RawText × α))
  | .dict entries =>
    (Checked.all (entries.map (readEntry read))).map Keyed.ofList
  | _ => .fail .notMapping

end CeilingGate.Validation
