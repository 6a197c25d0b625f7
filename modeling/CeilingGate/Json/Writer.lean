import CeilingGate.Integer
import CeilingGate.Text.Quoted
import CeilingGate.Value.Basic

/-! Writing JSON texts, on one line and in ASCII. -/
namespace CeilingGate.Json

open CeilingGate.Text

def escapeCode (n : Nat) : List Char := '\\' :: 'u' :: hexDigits 4 n

/-- A character beyond the first plane is escaped as a pair of codes. -/
def escapeBeyond (n : Nat) : List Char :=
  if n < 0x10000 then escapeCode n
  else
    escapeCode (0xd800 + (n - 0x10000) / 0x400) ++ escapeCode (0xdc00 + (n - 0x10000) % 0x400)

def writeChar (c : Char) : List Char :=
  if c == '"' then ['\\', '"']
  else if c == '\\' then ['\\', '\\']
  else if c == '\n' then ['\\', 'n']
  else if c == '\r' then ['\\', 'r']
  else if c == '\t' then ['\\', 't']
  else if c.toNat == 8 then ['\\', 'b']
  else if c.toNat == 12 then ['\\', 'f']
  else if c.toNat < 0x20 then escapeCode c.toNat
  else if c.toNat > 0x7e then escapeBeyond c.toNat
  else [c]

def writeText (s : String) : String := String.ofList ('"' :: s.toList.flatMap writeChar ++ ['"'])

def writeCode (n : Nat) : List Char :=
  if isHalfCode n then escapeCode n else writeChar (Char.ofNat n)

def writeCodes (codes : List Nat) : String := String.ofList ('"' :: codes.flatMap writeCode ++ ['"'])

def writeFloat : Binary64 → String
  | .nan => "NaN"
  | .infinite negative => if negative then "-Infinity" else "Infinity"
  | x => x.text

/-- Scalars; what JSON has no form for is written as a text. -/
def writeScalar : Value → String
  | .null => "null"
  | .bool b => if b then "true" else "false"
  | .int i => toString i
  | .float x => writeFloat x
  | .text s => writeText s
  | .brokenText codes => writeCodes codes
  | v => writeText v.typeName

/-- The key of an entry is always a text. -/
def writeKey : Value → String
  | .text s => writeText s
  | .brokenText codes => writeCodes codes
  | v => writeText (writeScalar v)

mutual
/-- One line, with a blank after each comma and colon. -/
def line : Value → String
  | .list items | .tuple items | .set items => "[" ++ ", ".intercalate (lineItems items) ++ "]"
  | .dict entries => "\x7b" ++ ", ".intercalate (lineEntries entries) ++ "\x7d"
  | v => writeScalar v

def lineItems : List Value → List String
  | [] => []
  | v :: rest => line v :: lineItems rest

def lineEntries : List (Value × Value) → List String
  | [] => []
  | (k, v) :: rest => (writeKey k ++ ": " ++ line v) :: lineEntries rest
end

end CeilingGate.Json
