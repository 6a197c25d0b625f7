import CeilingGate.Decimal.Basic

/-! Rounding to 28 digits, a half to the even neighbour, with adjusted exponents up to 999999. -/
namespace CeilingGate.Decimal

def precision : Nat := 28

def maxAdjusted : Int := 999999

/-- The exponent of the last digit that the smallest numbers have. -/
def minExponent : Int := -1000026

/-- A coefficient without its last `places` digits, rounded half to even. -/
def roundPlaces (n places : Nat) : Nat :=
  if places > digitCount n then 0
  else
    let unit := 10 ^ places
    let quotient := n / unit
    let rest := n % unit
    if 2 * rest > unit || (2 * rest == unit && quotient % 2 == 1) then quotient + 1 else quotient

/-- The nearest number of the format; none if it is too large. -/
def round? (d : Decimal) : Option Decimal :=
  if d.coefficient == 0 then some d
  else if d.adjusted > maxAdjusted then none
  else
    let excess : Int := digitCount d.coefficient - precision
    let exponent := max (max (d.exponent + excess) minExponent) d.exponent
    let rounded :=
      { d with
        coefficient := roundPlaces d.coefficient (exponent - d.exponent).toNat
        exponent := exponent }
    if rounded.adjusted > maxAdjusted then none else some rounded

end CeilingGate.Decimal
