import CeilingGate.Text.Basic
import CeilingGate.Text.Digit

/-! Integers as texts. A text of more than 4300 decimal digits is neither read nor written. Powers are
those of the core library, whatever algebra is imported. -/

attribute [instance (high)] instPowNat

namespace CeilingGate.Integer

open CeilingGate.Text

def digitLimit : Nat := 4300

/-- Digits of `base` with single underscores between them; a leading underscore is allowed only
where `afterPart` says that something came before. -/
def readDigits? (base : Nat) (afterPart : Bool) : List Char → Option (List Nat)
  | [] => some []
  | '_' :: c :: rest =>
    if afterPart then do
      let d ← digitIn? base c
      let ds ← readDigits? base true rest
      return d :: ds
    else none
  | c :: rest => do
    let d ← digitIn? base c
    let ds ← readDigits? base true rest
    return d :: ds

/-- The two letters that may announce the base. -/
def baseMark? : Nat → Option (Char × Char)
  | 2 => some ('b', 'B')
  | 8 => some ('o', 'O')
  | 16 => some ('x', 'X')
  | _ => none

/-- The digits after an optional mark of the base, and whether there was one. -/
def dropBaseMark (base : Nat) (cs : List Char) : List Char × Bool :=
  match baseMark? base, cs with
  | some (small, capital), '0' :: c :: rest =>
    if c == small || c == capital then (rest, true) else (cs, false)
  | _, _ => (cs, false)

def splitSign : List Char → Bool × List Char
  | '-' :: rest => (true, rest)
  | '+' :: rest => (false, rest)
  | cs => (false, cs)

/-- Reads blanks, a sign, a mark of the base, digits and blanks. Bases that are powers of two have
no limit on the number of digits. -/
def parse? (base : Nat) (cs : List Char) : Option Int :=
  let (negative, unsigned) := splitSign (stripEnd (stripStart cs))
  let (body, marked) := dropBaseMark base unsigned
  match readDigits? base marked body with
  | none | some [] => none
  | some digits =>
    if baseMark? base == none && digits.length > digitLimit then none
    else
      let n : Int := ofDigits base digits
      some (if negative then -n else n)

/-- The decimal text of an integer, if it is short enough to be written. -/
def text? (i : Int) : Option String :=
  if i.natAbs < 10 ^ digitLimit then some (toString i) else none

/-- What is said of an integer that is too long to be written. -/
def digitLimitMessage : String :=
  "Exceeds the limit (4300 digits) for integer string conversion; " ++
    "use sys.set_int_max_str_digits() to increase the limit"

/-- What is said of a text with too many digits to be read. -/
def digitCountMessage (count : Nat) : String :=
  "Exceeds the limit (4300 digits) for integer string conversion: value has " ++ toString count ++
    " digits; use sys.set_int_max_str_digits() to increase the limit"

end CeilingGate.Integer
