import CeilingGate.Integer
import CeilingGate.Text.Base64
import CeilingGate.Text.Quoted
import CeilingGate.Value.Basic
import CeilingGate.Yaml.Basic
import CeilingGate.Yaml.Tag

/-! The values of scalars under the tags that read them. -/
namespace CeilingGate.Yaml.Scalar

open CeilingGate.Text

def small (cs : List Char) : List Char := cs.map Numeral.smallAscii

def readBool (cs : List Char) : Except Failure Value :=
  let word := String.ofList (small cs)
  if ["yes", "true", "on"].contains word then .ok (.bool true)
  else if ["no", "false", "off"].contains word then .ok (.bool false)
  else .error (.abort (.missingEntry word))

/-- A text without underscores and its sign; there is none without a first character. -/
def splitSign? (cs : List Char) : Option (Bool × List Char) :=
  match cs.filter (· != '_') with
  | [] => none
  | cs => some (Integer.splitSign cs)

def orBadValue {α : Type} : Option α → Except Failure α
  | some a => .ok a
  | none => .error .badValue

/-- The number that parts in base sixty write. -/
def ofSixtieths (parts : List Int) : Int := parts.foldl (fun n d => 60 * n + d) 0

def unsignedInt (cs : List Char) : Except Failure Int :=
  match cs with
  | [] => .error (.abort .missingCharacter)
  | ['0'] => .ok 0
  | '0' :: 'b' :: rest => orBadValue (Integer.parse? 2 rest)
  | '0' :: 'x' :: rest => orBadValue (Integer.parse? 16 rest)
  | '0' :: _ => orBadValue (Integer.parse? 8 cs)
  | _ =>
    if cs.contains ':' then
      (orBadValue ((Form.splitColons cs).mapM (Integer.parse? 10))).map ofSixtieths
    else orBadValue (Integer.parse? 10 cs)

def readInt (cs : List Char) : Except Failure Value :=
  match splitSign? cs with
  | none => .error (.abort .missingCharacter)
  | some (negative, body) =>
    (unsignedInt body).map fun n => .int (if negative then -n else n)

/-- Adds parts in base sixty, the last one first; `unit` is the weight of the next part. -/
def addSixtieths (sum : Binary64) (unit : Int) : List Binary64 → Except Failure Binary64
  | [] => .ok sum
  | x :: rest =>
    match Binary64.ofInt? unit with
    | some weight => addSixtieths (sum + x * weight) (unit * 60) rest
    | none => .error (.abort .hugeNumber)

def unsignedFloat (cs : List Char) : Except Failure Binary64 :=
  let word := String.ofList cs
  if word == ".inf" then .ok (.infinite false)
  else if word == ".nan" then .ok .nan
  else if cs.contains ':' then do
    let parts ← orBadValue ((Form.splitColons cs).mapM Binary64.parse?)
    addSixtieths (.zero false) 1 parts.reverse
  else orBadValue (Binary64.parse? cs)

def readFloat (cs : List Char) : Except Failure Value :=
  match splitSign? (small cs) with
  | none => .error (.abort .missingCharacter)
  | some (negative, body) =>
    (unsignedFloat body).map fun x => .float (if negative then x.negate else x)

def encodingProblem (start : Nat) (run : List Char) : String :=
  let place :=
    match run with
    | [c] =>
      let escaped :=
        if c.toNat < 0x100 then '\\' :: 'x' :: hexDigits 2 c.toNat
        else if c.toNat < 0x10000 then '\\' :: 'u' :: hexDigits 4 c.toNat
        else '\\' :: 'U' :: hexDigits 8 c.toNat
      "character '" ++ String.ofList escaped ++ "' in position " ++ toString start
    | _ =>
      "characters in position " ++ toString start ++ "-" ++ toString (start + run.length - 1)
  "failed to convert base64 data into ascii: 'ascii' codec can't encode " ++ place ++
    ": ordinal not in range(128)"

def readBinary (cs : List Char) : Except Failure Value :=
  let isAscii (c : Char) : Bool := c.toNat < 128
  let (front, rest) := cs.span isAscii
  if rest.isEmpty then
    match Base64.decode cs with
    | .ok bytes => .ok (.bytes bytes)
    | .error fault => .error (.construction ("failed to decode base64 data: " ++ fault.message))
  else
    let run := rest.takeWhile fun c => !isAscii c
    .error (.construction (encodingProblem front.length run))

def number (cs : List Char) : Nat := ofDigits 10 (cs.map fun c => c.toNat - 48)

/-- The seconds that a zone lies east of the zero meridian. -/
def zoneOffset : List Char → Option Int
  | [] => none
  | ['Z'] => some 0
  | sign :: rest =>
    let (hours, minutes) := rest.span (· != ':')
    let seconds : Int := ((number hours * 60 + number (minutes.drop 1)) * 60 : Nat)
    some (if sign == '-' then -seconds else seconds)

def readTimestamp (cs : List Char) : Except Failure Value :=
  let trimmed := if cs.getLast? == some '\n' then cs.dropLast else cs
  match MomentText.parse? trimmed with
  | none => .error (.abort .missingMatch)
  | some m =>
    let date : Date := ⟨number m.year, number m.month, number m.day⟩
    match m.time? with
    | none => if date.isValid then .ok (.date date) else .error .badValue
    | some (hour, minute, second, fraction) =>
      let micro := (fraction ++ List.replicate 6 '0').take 6
      let moment : Moment :=
        ⟨date, number hour, number minute, number second, number micro, zoneOffset m.zone⟩
      if moment.isValid then .ok (.moment moment) else .error .badValue

/-- What reads the scalars of a standard tag. -/
def reader? (tag : String) : Option (List Char → Except Failure Value) :=
  if tag == standard "null" then some fun _ => .ok .null
  else if tag == standard "bool" then some readBool
  else if tag == standard "int" then some readInt
  else if tag == standard "float" then some readFloat
  else if tag == standard "binary" then some readBinary
  else if tag == standard "timestamp" then some readTimestamp
  else if tag == standard "str" then some fun cs => .ok (.text (String.ofList cs))
  else none

end CeilingGate.Yaml.Scalar
