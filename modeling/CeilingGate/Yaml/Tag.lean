/-! Tags, and the tags that plain scalars have by their form. -/
namespace CeilingGate.Yaml

def standard (name : String) : String := "tag:yaml.org,2002:" ++ name

namespace Form

/-- What follows an optional sign. -/
def unsigned : List Char → List Char
  | '-' :: rest => rest
  | '+' :: rest => rest
  | cs => cs

def isDigitOrBar (c : Char) : Bool := c.isDigit || c == '_'

def allOf (p : Char → Bool) (cs : List Char) : Bool := !cs.isEmpty && cs.all p

/-- A part of a number in base sixty. -/
def isSixtieth : List Char → Bool
  | [c] => c.isDigit
  | [a, b] => '0' ≤ a && a ≤ '5' && b.isDigit
  | _ => false

/-- The parts of a text between its colons. -/
def splitColons : List Char → List (List Char)
  | [] => [[]]
  | ':' :: rest => [] :: splitColons rest
  | c :: rest =>
    match splitColons rest with
    | part :: parts => (c :: part) :: parts
    | [] => [[c]]

def isDecimalInt : List Char → Bool
  | ['0'] => true
  | c :: rest => '1' ≤ c && c ≤ '9' && rest.all isDigitOrBar
  | [] => false

def isInt (cs : List Char) : Bool :=
  let body := unsigned cs
  match body with
  | '0' :: 'b' :: rest => allOf (fun c => c == '0' || c == '1' || c == '_') rest
  | '0' :: 'x' :: rest =>
    allOf (fun c => isDigitOrBar c || ('a' ≤ c && c ≤ 'f') || ('A' ≤ c && c ≤ 'F')) rest
  | '0' :: c :: rest => (c :: rest).all fun c => ('0' ≤ c && c ≤ '7') || c == '_'
  | _ =>
    match splitColons body with
    | [whole] => isDecimalInt whole
    | whole :: parts => isDecimalInt whole && whole != ['0'] && parts.all isSixtieth
    | [] => false

/-- Nothing, or a power of ten with its sign. -/
def isPower : List Char → Bool
  | [] => true
  | e :: s :: digits => (e == 'e' || e == 'E') && (s == '-' || s == '+') && allOf Char.isDigit digits
  | _ => false

def isFraction (cs : List Char) : Bool := isPower (cs.dropWhile isDigitOrBar)

def isNumberStart : List Char → Bool
  | c :: rest => c.isDigit && rest.all isDigitOrBar
  | [] => false

def isFloat (cs : List Char) : Bool :=
  let body := unsigned cs
  let (whole, rest) := body.span (· != '.')
  match rest with
  | [] => false
  | _ :: fraction =>
    let tail := String.ofList fraction
    if whole.isEmpty then
      ["inf", "Inf", "INF"].contains tail ||
        (body == cs &&
          (["nan", "NaN", "NAN"].contains tail ||
            ((fraction.head?.map Char.isDigit).getD false && isFraction fraction)))
    else
      match splitColons whole with
      | [only] => isNumberStart only && isFraction fraction
      | first :: parts =>
        isNumberStart first && parts.all isSixtieth && fraction.all isDigitOrBar
      | [] => false

def isBool (cs : List Char) : Bool :=
  ["yes", "Yes", "YES", "no", "No", "NO", "true", "True", "TRUE", "false", "False", "FALSE",
    "on", "On", "ON", "off", "Off", "OFF"].contains (String.ofList cs)

def isNull (cs : List Char) : Bool := ["", "~", "null", "Null", "NULL"].contains (String.ofList cs)

end Form

/-- The parts of a moment as it is written. -/
structure MomentText where
  year : List Char
  month : List Char
  day : List Char
  /-- Hour, minute, second and the digits of a fraction. -/
  time? : Option (List Char × List Char × List Char × List Char)
  /-- The text behind the time: nothing, `Z`, or a signed offset. -/
  zone : List Char

namespace MomentText

def takeDigits (least most : Nat) (cs : List Char) : Option (List Char × List Char) :=
  let digits := (cs.take most).takeWhile Char.isDigit
  if digits.length < least then none else some (digits, cs.drop digits.length)

def skip (c : Char) : List Char → Option (List Char)
  | d :: rest => if c == d then some rest else none
  | [] => none

def isZone : List Char → Bool
  | ['Z'] => true
  | s :: rest =>
    (s == '-' || s == '+') &&
      (match takeDigits 1 2 rest with
      | some (_, []) => true
      | some (_, ':' :: minutes) => minutes.length == 2 && minutes.all Char.isDigit
      | _ => false)
  | [] => true

/-- The start of the time, behind a letter or blanks. -/
def timeStart? : List Char → Option (List Char)
  | 'T' :: rest => some rest
  | 't' :: rest => some rest
  | c :: rest =>
    if c == ' ' || c == '\t' then some (rest.dropWhile fun c => c == ' ' || c == '\t') else none
  | [] => none

def readTime (cs : List Char) :
    Option ((List Char × List Char × List Char × List Char) × List Char) := do
  let (hour, cs) ← takeDigits 1 2 cs
  let cs ← skip ':' cs
  let (minute, cs) ← takeDigits 2 2 cs
  let cs ← skip ':' cs
  let (second, cs) ← takeDigits 2 2 cs
  let (fraction, cs) :=
    match cs with
    | '.' :: rest => rest.span Char.isDigit
    | _ => ([], cs)
  let zone := cs.dropWhile fun c => c == ' ' || c == '\t'
  if zone.isEmpty && !cs.isEmpty then none
  else some ((hour, minute, second, fraction), zone)

/-- Reads a date, or a date and a time. -/
def parse? (cs : List Char) : Option MomentText := do
  let (year, cs) ← takeDigits 4 4 cs
  let cs ← skip '-' cs
  let (month, cs) ← takeDigits 1 2 cs
  let cs ← skip '-' cs
  let (day, cs) ← takeDigits 1 2 cs
  if cs.isEmpty then some ⟨year, month, day, none, []⟩
  else
    let cs ← timeStart? cs
    let (time, zone) ← readTime cs
    if isZone zone then some ⟨year, month, day, some time, zone⟩ else none

/-- A plain scalar is a date only with two digits for month and day. -/
def isImplicit (cs : List Char) : Bool :=
  match parse? cs with
  | some m => m.time?.isSome || (m.month.length == 2 && m.day.length == 2)
  | none => false

end MomentText

/-- The tag that a scalar's form gives it. -/
def formTag (cs : List Char) : String :=
  if Form.isBool cs then standard "bool"
  else if Form.isFloat cs then standard "float"
  else if Form.isInt cs then standard "int"
  else if cs == ['<', '<'] then standard "merge"
  else if Form.isNull cs then standard "null"
  else if MomentText.isImplicit cs then standard "timestamp"
  else if cs == ['='] then standard "value"
  else if [['!'], ['&'], ['*']].contains cs then standard "yaml"
  else standard "str"

/-- A single line feed at the end of a scalar does not change its form, unless nothing else is there. -/
def implicitTag (cs : List Char) : String :=
  match cs.reverse with
  | '\n' :: c :: rest => formTag (c :: rest).reverse
  | ['\n'] => standard "str"
  | _ => formTag cs

end CeilingGate.Yaml
