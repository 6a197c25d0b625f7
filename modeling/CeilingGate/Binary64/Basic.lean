import CeilingGate.Integer

/-! Double precision numbers as exact data: 53 bits of mantissa times a power of two, with the usual
rounding to the nearest, ties to even. -/
namespace CeilingGate

/-- A finite number is the mantissa times two to the exponent. The mantissa has 53 bits unless the
exponent is the least one. -/
inductive Binary64
  | finite (negative : Bool) (mantissa : Nat) (exponent : Int)
  | infinite (negative : Bool)
  | nan
deriving DecidableEq, Repr, Inhabited

namespace Binary64

def mantissaBits : Nat := 53

def minExponent : Int := -1074

def maxExponent : Int := 971

def zero (negative : Bool) : Binary64 := .finite negative 0 minExponent

/-- The exponent of the mantissa's last bit for a quotient of two positive numbers. -/
def exponentOf (num den : Nat) : Int :=
  let guess : Int := (num.log2 : Int) - den.log2 - mantissaBits
  let tooSmall : Bool :=
    if guess ≥ 0 then num ≥ den * 2 ^ (guess.toNat + mantissaBits)
    else num * 2 ^ (-guess).toNat ≥ den * 2 ^ mantissaBits
  max (if tooSmall then guess + 1 else guess) minExponent

def divideHalfEven (num den : Nat) : Nat :=
  let quotient := num / den
  let rest := num % den
  if 2 * rest > den || (2 * rest == den && quotient % 2 == 1) then quotient + 1 else quotient

/-- The double nearest to a quotient. -/
def ofQuotient (negative : Bool) (num den : Nat) : Binary64 :=
  if num == 0 then zero negative
  else
    let e := exponentOf num den
    let m :=
      if e ≥ 0 then divideHalfEven num (den * 2 ^ e.toNat)
      else divideHalfEven (num * 2 ^ (-e).toNat) den
    let (m, e) := if m == 2 ^ mantissaBits then (2 ^ (mantissaBits - 1), e + 1) else (m, e)
    if e > maxExponent then .infinite negative else .finite negative m e

/-- The double nearest to a decimal; far exponents are decided without expanding them. -/
def ofDecimal (negative : Bool) (coefficient : Nat) (exponent : Int) : Binary64 :=
  if coefficient == 0 then zero negative
  else
    let magnitude := exponent + (Nat.toDigits 10 coefficient).length
    if magnitude > 310 then .infinite negative
    else if magnitude < -330 then zero negative
    else if exponent ≥ 0 then ofQuotient negative (coefficient * 10 ^ exponent.toNat) 1
    else ofQuotient negative coefficient (10 ^ (-exponent).toNat)

/-- The double nearest to an integer; none if it is too large. -/
def ofInt? (i : Int) : Option Binary64 :=
  match ofQuotient (i < 0) i.natAbs 1 with
  | .infinite _ => none
  | x => some x

def isNegative : Binary64 → Bool
  | .finite negative _ _ => negative
  | .infinite negative => negative
  | .nan => false

def isZero : Binary64 → Bool
  | .finite _ m _ => m == 0
  | _ => false

def negate : Binary64 → Binary64
  | .finite negative m e => .finite (!negative) m e
  | .infinite negative => .infinite (!negative)
  | .nan => .nan

/-- The mantissa with its sign. -/
def signed (negative : Bool) (m : Nat) : Int := if negative then -(m : Int) else m

protected def add : Binary64 → Binary64 → Binary64
  | .nan, _ | _, .nan => .nan
  | .infinite s, .infinite t => if s == t then .infinite s else .nan
  | .infinite s, _ | _, .infinite s => .infinite s
  | .finite s m e, .finite t n f =>
    let low := min e f
    let sum := signed s m * 2 ^ (e - low).toNat + signed t n * 2 ^ (f - low).toNat
    if sum == 0 then zero (s && t)
    else if low ≥ 0 then ofQuotient (sum < 0) (sum.natAbs * 2 ^ low.toNat) 1
    else ofQuotient (sum < 0) sum.natAbs (2 ^ (-low).toNat)

protected def mul : Binary64 → Binary64 → Binary64
  | .nan, _ | _, .nan => .nan
  | .infinite s, y =>
    if y.isZero then .nan else .infinite (s != y.isNegative)
  | x, .infinite t =>
    if x.isZero then .nan else .infinite (x.isNegative != t)
  | .finite s m e, .finite t n f =>
    let power := e + f
    if power ≥ 0 then ofQuotient (s != t) (m * n * 2 ^ power.toNat) 1
    else ofQuotient (s != t) (m * n) (2 ^ (-power).toNat)

instance : Add Binary64 := ⟨Binary64.add⟩

instance : Mul Binary64 := ⟨Binary64.mul⟩

/-- Whether a number is above zero; the undefined one is not. -/
def isPositive : Binary64 → Bool
  | .finite negative m _ => !negative && m != 0
  | .infinite negative => !negative
  | .nan => false

/-- Whether a number is at most zero; the undefined one is not. -/
def isAtMostZero : Binary64 → Bool
  | .finite negative m _ => negative || m == 0
  | .infinite negative => negative
  | .nan => false

/-- The exact integer that a number is, if it is one. -/
def toInt? : Binary64 → Option Int
  | .finite negative m e =>
    if e ≥ 0 then some (signed negative (m * 2 ^ e.toNat))
    else
      let unit := 2 ^ (-e).toNat
      if m % unit == 0 then some (signed negative (m / unit)) else none
  | _ => none

end Binary64

end CeilingGate
