import CeilingGate.Binary64.Basic
import CeilingGate.Decimal.Numeral

/-! Doubles as texts. The written text has the fewest digits that read back as the number; of two
such it is the nearer one, or the even one. -/
namespace CeilingGate.Binary64

/-- The least power of ten above a quotient, from an estimate `guess` that is not too large. -/
def tenPower (num den : Nat) : Nat → Int → Int
  | 0, guess => guess
  | fuel + 1, guess =>
    let below : Bool :=
      if guess ≥ 0 then num < den * 10 ^ guess.toNat else num * 10 ^ (-guess).toNat < den
    if below then guess else tenPower num den fuel (guess + 1)

/-- Of the two neighbours with `count` digits, the nearer one that reads back; of two at the same
distance, the even one. -/
def candidate? (num den : Nat) (power : Int) (x : Binary64) (count : Nat) : Option (Nat × Int) :=
  let e := power - count
  let (top, bottom) :=
    if e ≥ 0 then (num, den * 10 ^ e.toNat) else (num * 10 ^ (-e).toNat, den)
  let low := top / bottom
  let rest := top % bottom
  let isLow := 2 * rest < bottom || (2 * rest == bottom && low % 2 == 0)
  let order := if isLow then [low, low + 1] else [low + 1, low]
  (order.find? fun n => ofDecimal false n e == x).map (·, e)

/-- The digits and exponent of the shortest decimal that reads back as a positive number. -/
def shortest (m : Nat) (e : Int) : Nat × Int :=
  let (num, den) : Nat × Nat := if e ≥ 0 then (m * 2 ^ e.toNat, 1) else (m, 2 ^ (-e).toNat)
  let estimate : Int := ((num.log2 : Int) - den.log2 - 1) * 30103 / 100000 - 1
  let power := tenPower num den 5 estimate
  ((List.range 17).findSome? fun i =>
    candidate? num den power (.finite false m e) (i + 1)).getD (m, e)

/-- Positional while the leading digit stands no further than four places behind the point and no more
than sixteen digits stand before it; else in scientific form with at least two exponent digits. -/
def textOfDecimal (coefficient : Nat) (exponent : Int) : String :=
  let (n, e) := Decimal.dropZeros 20 coefficient exponent
  let digits := Nat.toDigits 10 n
  let point : Int := e + digits.length
  if -4 < point && point ≤ 16 then
    if point ≤ 0 then
      "0." ++ String.ofList (List.replicate (-point).toNat '0' ++ digits)
    else if point ≥ digits.length then
      String.ofList (digits ++ List.replicate (point - digits.length).toNat '0') ++ ".0"
    else String.ofList (digits.take point.toNat ++ '.' :: digits.drop point.toNat)
  else
    let power := point - 1
    let mantissa :=
      match digits with
      | d :: [] => [d]
      | d :: rest => d :: '.' :: rest
      | [] => []
    let size := toString power.natAbs
    String.ofList mantissa ++ "e" ++ (if power < 0 then "-" else "+") ++
      (if size.length < 2 then "0" else "") ++ size

def text : Binary64 → String
  | .nan => "nan"
  | .infinite negative => if negative then "-inf" else "inf"
  | .finite negative m e =>
    let body :=
      if m == 0 then "0.0"
      else
        let (n, power) := shortest m e
        textOfDecimal n power
    (if negative then "-" else "") ++ body

/-- Whether every underscore stands between two digits. -/
def underscoresFit : Option Char → List Char → Bool
  | _, [] => true
  | before, '_' :: rest =>
    let digitBefore := (before.map Text.isDecimalDigit).getD false
    let digitAfter := (rest.head?.map Text.isDecimalDigit).getD false
    digitBefore && digitAfter && underscoresFit (some '_') rest
  | _, c :: rest => underscoresFit (some c) rest

/-- A number without limit on its exponent: digits with an optional point, then an optional power. -/
def readDecimal? (cs : List Char) : Option (Nat × Int) := do
  let (whole, rest) := Numeral.splitDigits cs
  let (fraction, rest) := Numeral.splitFraction rest
  let power ← Numeral.exponent? rest
  if whole.isEmpty && fraction.isEmpty then none
  else some (Text.ofDigits 10 (whole ++ fraction), power - fraction.length)

/-- Reads a literal between blanks: a decimal, an infinity or an undefined number, with an optional
sign. Single underscores may stand between digits. -/
def parse? (cs : List Char) : Option Binary64 :=
  let trimmed := Text.stripEnd (Text.stripStart cs)
  if !underscoresFit none trimmed then none
  else
    let (negative, unsigned) := Numeral.splitSign (trimmed.filter (· != '_'))
    let small := String.ofList (unsigned.map Numeral.smallAscii)
    if small == "inf" || small == "infinity" then some (.infinite negative)
    else if small == "nan" then some .nan
    else (readDecimal? unsigned).map fun (n, e) => ofDecimal negative n e

end CeilingGate.Binary64
