import CeilingGate.Text.Printable

/-! Quoted texts, as messages show them: in single quotes, or in double quotes when the text holds
single quotes only. What cannot be printed is escaped by its code. -/
namespace CeilingGate.Text

def hexDigit (n : Nat) : Char := if n < 10 then Char.ofNat (48 + n) else Char.ofNat (87 + n)

/-- The last `places` hexadecimal digits of a number. -/
def hexDigits : Nat → Nat → List Char
  | 0, _ => []
  | places + 1, n => hexDigits places (n / 16) ++ [hexDigit (n % 16)]

/-- The quote that needs the fewest escapes. -/
def chooseQuote (cs : List Char) : Char :=
  if cs.contains '\'' && !cs.contains '"' then '"' else '\''

def escapeShort? (quote c : Char) : Option (List Char) :=
  if c == quote || c == '\\' then some ['\\', c]
  else if c == '\n' then some ['\\', 'n']
  else if c == '\r' then some ['\\', 'r']
  else if c == '\t' then some ['\\', 't']
  else none

def escapeChar (quote c : Char) : List Char :=
  match escapeShort? quote c with
  | some short => short
  | none =>
    if isPrintable c then [c]
    else if c.toNat < 0x100 then '\\' :: 'x' :: hexDigits 2 c.toNat
    else if c.toNat < 0x10000 then '\\' :: 'u' :: hexDigits 4 c.toNat
    else '\\' :: 'U' :: hexDigits 8 c.toNat

def quotedChars (cs : List Char) : List Char :=
  let quote := chooseQuote cs
  quote :: cs.flatMap (escapeChar quote) ++ [quote]

def quoted (s : String) : String := String.ofList (quotedChars s.toList)

/-- A code that is no character is escaped; the others are quoted as characters are. -/
def quotedCodes (codes : List Nat) : String :=
  let quote := chooseQuote (codes.map Char.ofNat)
  let escape (n : Nat) : List Char :=
    if isHalfCode n then '\\' :: 'u' :: hexDigits 4 n else escapeChar quote (Char.ofNat n)
  String.ofList (quote :: codes.flatMap escape ++ [quote])

/-- Bytes are quoted alike after the letter `b`; all but printable ASCII is escaped. -/
def quotedBytes (bytes : List UInt8) : String :=
  let cs := bytes.map fun b => Char.ofNat b.toNat
  let quote := chooseQuote cs
  let escape (c : Char) : List Char :=
    match escapeShort? quote c with
    | some short => short
    | none =>
      if 0x20 ≤ c.toNat && c.toNat < 0x7f then [c] else '\\' :: 'x' :: hexDigits 2 c.toNat
  String.ofList ('b' :: quote :: cs.flatMap escape ++ [quote])

end CeilingGate.Text
