import CeilingGate.Decimal.Basic
import CeilingGate.Text.Basic
import CeilingGate.Text.Digit

/-! What a decimal numeral denotes: a number, an infinity, or an undefined result with its payload. -/
namespace CeilingGate

open CeilingGate.Text

inductive Numeral
  | number (d : Decimal)
  | infinite (negative : Bool)
  | undefined (negative signalling : Bool) (payload : Nat)
deriving DecidableEq, Repr, Inhabited

namespace Numeral

def text : Numeral → String
  | .number d => d.text
  | .infinite negative => (if negative then "-" else "") ++ "Infinity"
  | .undefined negative signalling payload =>
    (if negative then "-" else "") ++ (if signalling then "sNaN" else "NaN") ++
      (if payload == 0 then "" else toString payload)

/-- The digits at the start of a text, of any script, and what follows them. -/
def splitDigits : List Char → List Nat × List Char
  | [] => ([], [])
  | c :: rest =>
    match digitValue? c with
    | some d => let (ds, tail) := splitDigits rest; (d :: ds, tail)
    | none => ([], c :: rest)

def splitSign : List Char → Bool × List Char
  | '-' :: rest => (true, rest)
  | '+' :: rest => (false, rest)
  | cs => (false, cs)

/-- The digits behind a point, if there is one. -/
def splitFraction : List Char → List Nat × List Char
  | '.' :: rest => splitDigits rest
  | cs => ([], cs)

/-- The exponent that ends a numeral; a missing one is zero. -/
def exponent? : List Char → Option Int
  | [] => some 0
  | c :: rest =>
    if c == 'e' || c == 'E' then
      let (negative, unsigned) := splitSign rest
      match splitDigits unsigned with
      | (d :: ds, []) =>
        let n : Int := ofDigits 10 (d :: ds)
        some (if negative then -n else n)
      | _ => none
    else none

def maxExponent : Int := 999999999999999999

def minExponent : Int := -1999999999999999997

/-- A numeral outside the range of exponents is not read. -/
def inRange (d : Decimal) : Bool := d.adjusted ≤ maxExponent && minExponent ≤ d.exponent

def number? (negative : Bool) (cs : List Char) : Option Numeral := do
  let (whole, rest) := splitDigits cs
  let (fraction, rest) := splitFraction rest
  let power ← exponent? rest
  if whole.isEmpty && fraction.isEmpty then none
  else
    let d : Decimal := ⟨negative, ofDigits 10 (whole ++ fraction), power - fraction.length⟩
    if inRange d then some (.number d) else none

def payload? (negative signalling : Bool) (cs : List Char) : Option Numeral :=
  match splitDigits cs with
  | (ds, []) => some (.undefined negative signalling (ofDigits 10 ds))
  | _ => none

def smallAscii (c : Char) : Char := if 'A' ≤ c && c ≤ 'Z' then Char.ofNat (c.toNat + 32) else c

/-- A numeral without blanks and underscores. -/
def read? (cs : List Char) : Option Numeral :=
  let (negative, unsigned) := splitSign cs
  match unsigned.map smallAscii with
  | 'i' :: 'n' :: 'f' :: rest =>
    if rest == [] || rest == "inity".toList then some (.infinite negative) else none
  | 'n' :: 'a' :: 'n' :: rest => payload? negative false rest
  | 's' :: 'n' :: 'a' :: 'n' :: rest => payload? negative true rest
  | _ => number? negative unsigned

/-- Blanks around a numeral and underscores anywhere in it do not count. -/
def parse? (cs : List Char) : Option Numeral :=
  read? ((stripEnd (stripStart cs)).filter (· != '_'))

end Numeral

end CeilingGate
