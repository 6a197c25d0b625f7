import CeilingGate.Decimal.Numeral
import CeilingGate.Decimal.Rounding
import CeilingGate.Stop
import CeilingGate.Value.Text

/-! Reading quantities: a decimal numeral with an optional unit. A numeral without a unit is exact; with
one, the product is rounded. -/
namespace CeilingGate.Quantity

open CeilingGate.Text

/-- Why a text or value is not a quantity. -/
inductive Fault
  | notAQuantity (shown : String)
  | tooManyDigits
  | tooDeep
  | empty
  | format (text number : RawText)
  | unknownSuffix (text : String)
  | outOfRange (text : String)
  | notFinite (text : String)
deriving DecidableEq, Repr, Inhabited

def Fault.message : Fault → RawText
  | .notAQuantity shown => "invalid quantity " ++ shown
  | .tooManyDigits => Integer.digitLimitMessage
  | .tooDeep => Abort.tooDeep.message
  | .empty => "invalid quantity: empty string"
  | .format text number =>
    "invalid quantity " ++ text.quoted ++ ": Invalid number format: " ++ number
  | .unknownSuffix text => "invalid quantity " ++ quoted text ++ ": " ++ text ++ " has unknown suffix"
  | .outOfRange text => "invalid quantity " ++ quoted text ++ ": Invalid quantity: " ++ text
  | .notFinite text => "invalid quantity " ++ quoted text ++ ": not a finite number"

/-- A value that is nested too deep to be shown ends the work. -/
def Fault.abort? : Fault → Option Abort
  | .tooDeep => some .tooDeep
  | _ => none

/-- A unit letter, alone or before the `i` of the binary units. -/
inductive Suffix
  | plain (letter : Char)
  | binary (letter : Char)
deriving DecidableEq, Repr

/-- The power of a thousand that a letter stands for. -/
def thousands? : Char → Option Int
  | 'n' => some (-3)
  | 'u' => some (-2)
  | 'm' => some (-1)
  | 'k' | 'K' => some 1
  | 'M' => some 2
  | 'G' => some 3
  | 'T' => some 4
  | 'P' => some 5
  | 'E' => some 6
  | _ => none

def isUnitLetter (c : Char) : Bool := (thousands? c).isSome

/-- A last unit letter always counts as the unit, also in `nan`. -/
def splitSuffix (cs : List Char) : List Char × Option Suffix :=
  match cs.reverse with
  | 'i' :: c :: rest => if isUnitLetter c then (rest.reverse, some (.binary c)) else (cs, none)
  | c :: rest => if isUnitLetter c then (rest.reverse, some (.plain c)) else (cs, none)
  | [] => (cs, none)

/-- Unit of a suffix as coefficient and power of ten. Binary units are capital letters from `K` on. -/
def Suffix.unit? : Suffix → Option (Nat × Int)
  | .plain c => (thousands? c).map fun k => (1, 3 * k)
  | .binary 'k' => none
  | .binary c =>
    (thousands? c).bind fun k => if k > 0 then some (1024 ^ k.toNat, 0) else none

/-- The number times the unit, rounded. -/
def scale? (d : Decimal) (unit : Nat × Int) : Option Decimal :=
  Decimal.round? { d with coefficient := d.coefficient * unit.1, exponent := d.exponent + unit.2 }

/-- The value that a numeral and a suffix denote. -/
def valueOf (text : String) (numeral : Numeral) (suffix : Option Suffix) : Except Fault Decimal :=
  match suffix with
  | none =>
    match numeral with
    | .number d => .ok d
    | _ => .error (.notFinite text)
  | some suffix =>
    match suffix.unit? with
    | none => .error (.unknownSuffix text)
    | some unit =>
      match numeral with
      | .number d =>
        match scale? d unit with
        | some value => .ok value
        | none => .error (.outOfRange text)
      | .undefined _ true _ => .error (.outOfRange text)
      | _ => .error (.notFinite text)

/-- Reads a text without blanks at its ends. -/
def ofStripped (text : String) : Except Fault Quantity :=
  if text.isEmpty then .error .empty
  else
    let (number, suffix) := splitSuffix text.toList
    match Numeral.parse? number with
    | none => .error (.format (.plain text) (.plain (String.ofList number)))
    | some numeral => (valueOf text numeral suffix).map fun value => ⟨text, value⟩

def ofText (text : String) : Except Fault Quantity := ofStripped (strip text)

/-- No numeral holds half of a pair. -/
def ofRaw : RawText → Except Fault Quantity
  | .plain s => ofText s
  | .broken t =>
    let text := RawText.strip (.broken t)
    .error (.format text (text.take (splitSuffix text.shape).1.length))

def ofInt (i : Int) : Except Fault Quantity :=
  match Integer.text? i with
  | some s => ofStripped s
  | none => .error .tooManyDigits

/-- A value of a form that no quantity has is shown in the message. -/
def refuse (v : Value) : Except Fault Quantity :=
  match v.unshown? callsLeft, v.shown? with
  | some .tooDeep, _ => .error .tooDeep
  | _, some shown => .error (.notAQuantity shown)
  | _, none => .error .tooManyDigits

/-- Truth values are no numbers here. -/
def ofValue (v : Value) : Except Fault Quantity :=
  match v with
  | .quantity q => .ok q
  | .text s => ofText s
  | .brokenText codes => ofRaw (.ofCodes codes)
  | .int i => ofInt i
  | .float x => ofStripped x.text
  | .decimal n => ofStripped n.text
  | _ => refuse v

end CeilingGate.Quantity
