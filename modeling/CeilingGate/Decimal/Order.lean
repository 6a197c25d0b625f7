import CeilingGate.Decimal.Basic

/-! The order of decimal numbers by value. Magnitudes are told apart by their leading digits first, so
coefficients are aligned only when their exponents differ by no more than their lengths. -/
namespace CeilingGate.Decimal

/-- Compares two magnitudes above zero. -/
def compareMagnitudes (a b : Decimal) : Ordering :=
  match compare a.adjusted b.adjusted with
  | .eq =>
    if a.exponent ≥ b.exponent then
      compare (a.coefficient * 10 ^ (a.exponent - b.exponent).toNat) b.coefficient
    else compare a.coefficient (b.coefficient * 10 ^ (b.exponent - a.exponent).toNat)
  | o => o

/-- Minus one, zero or one. -/
def sign (d : Decimal) : Int :=
  if d.coefficient == 0 then 0 else if d.negative then -1 else 1

protected def compare (a b : Decimal) : Ordering :=
  match compare a.sign b.sign with
  | .eq =>
    if a.sign == 0 then .eq
    else if a.sign > 0 then compareMagnitudes a b
    else compareMagnitudes b a
  | o => o

def eqv (a b : Decimal) : Bool := a.compare b == .eq

def lt (a b : Decimal) : Bool := a.compare b == .lt

def modulus : Nat := 2 ^ (61 : Nat) - 1

/-- Ten has an inverse for the prime modulus. -/
def tenInverse : Nat := 2075258708292324556

/-- Powers by repeated squaring. -/
def powMod : Nat → Nat → Nat → Nat
  | 0, _, _ => 1
  | fuel + 1, base, power =>
    if power == 0 then 1
    else
      let half := powMod fuel (base * base % modulus) (power / 2)
      if power % 2 == 1 then half * base % modulus else half

/-- The number's residue for the prime modulus, under which sets file it. -/
def slot (d : Decimal) : Int :=
  let base := if d.exponent ≥ 0 then 10 else tenInverse
  let power := d.exponent.natAbs
  let residue := d.coefficient * powMod (power.log2 + 1) base power % modulus
  if d.negative then -residue else residue

end CeilingGate.Decimal
