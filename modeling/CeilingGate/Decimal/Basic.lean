import CeilingGate.Integer

/-! Decimal numbers: a signed coefficient times a power of ten. The exponent is never expanded, so
numbers with exponents of any size are compared and printed. -/
namespace CeilingGate

/-- The value is the coefficient times ten to the exponent, negated if `negative`. -/
structure Decimal where
  negative : Bool
  coefficient : Nat
  exponent : Int
deriving DecidableEq, Repr, Inhabited

namespace Decimal

def zero : Decimal := ⟨false, 0, 0⟩

def isZero (d : Decimal) : Bool := d.coefficient == 0

/-- Below zero; the negative zero is not. -/
def isNegative (d : Decimal) : Bool := d.negative && d.coefficient != 0

/-- How many digits the coefficient is written with. -/
def digitCount (n : Nat) : Nat := (Nat.toDigits 10 n).length

/-- The exponent of the leading digit. -/
def adjusted (d : Decimal) : Int := d.exponent + digitCount d.coefficient - 1

/-- Moves trailing zeros of the coefficient into the exponent. -/
def dropZeros : Nat → Nat → Int → Nat × Int
  | 0, n, e => (n, e)
  | fuel + 1, n, e => if n % 10 == 0 then dropZeros fuel (n / 10) (e + 1) else (n, e)

/-- The one text of a value: digits without zeros at their ends, then the power of ten. -/
def canonicalText (d : Decimal) : String :=
  if d.coefficient == 0 then "0"
  else
    let (n, e) := dropZeros (digitCount d.coefficient) d.coefficient d.exponent
    (if d.negative then "-" else "") ++ toString n ++ "E" ++ toString e

/-- The text with every digit of the coefficient: positional while the exponent is not positive and
the leading digit stands no further than six places behind the point, else in scientific form. -/
def text (d : Decimal) : String :=
  let digits := Nat.toDigits 10 d.coefficient
  let count : Int := digits.length
  let left := d.exponent + count
  let point : Int := if d.exponent ≤ 0 && left > -6 then left else 1
  let body : List Char :=
    if point ≤ 0 then '0' :: '.' :: List.replicate (-point).toNat '0' ++ digits
    else if point ≥ count then digits ++ List.replicate (point - count).toNat '0'
    else digits.take point.toNat ++ '.' :: digits.drop point.toNat
  let power := left - point
  let tail :=
    if power == 0 then "" else "E" ++ (if power > 0 then "+" else "") ++ toString power
  (if d.negative then "-" else "") ++ String.ofList body ++ tail

end Decimal

end CeilingGate
