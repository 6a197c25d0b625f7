import CeilingGate.Stop
import CeilingGate.Value.Key

/-! Reading JSON texts. All dialects know `NaN`, `Infinity` and `-Infinity`; they differ in how deep
collections may nest, and in whether an escape may leave a code point that is no character. -/
namespace CeilingGate.Json

open CeilingGate.Text

structure Dialect where
  /-- The deepest collection that may have content. -/
  depth : Nat
  digits : Nat
  brokenTexts : Bool
  /-- The codes of the whole text, if some of them are no characters. -/
  original : List Nat
deriving Repr

/-- The code of a character that is followed by `rest`. -/
def Dialect.codeOf (dialect : Dialect) (c : Char) (rest : List Char) : Nat :=
  (dialect.original.reverse[rest.length]?).getD c.toNat

inductive Fault
  | malformed
  | tooManyDigits (count : Nat)
  | tooDeep
deriving DecidableEq, Repr

def isSpace (c : Char) : Bool := c == ' ' || c == '\t' || c == '\n' || c == '\r'

def skipSpaces (cs : List Char) : List Char := cs.dropWhile isSpace

def hexValue? (c : Char) : Option Nat :=
  let n := c.toNat
  if 48 ≤ n && n ≤ 57 then some (n - 48)
  else if 97 ≤ n && n ≤ 102 then some (n - 87)
  else if 65 ≤ n && n ≤ 70 then some (n - 55)
  else none

/-- The code that four hexadecimal digits write. -/
def hexCode? : List Char → Option (Nat × List Char)
  | a :: b :: c :: d :: rest => do
    let a ← hexValue? a
    let b ← hexValue? b
    let c ← hexValue? c
    let d ← hexValue? d
    some (ofDigits 16 [a, b, c, d], rest)
  | _ => none

def isHigh (n : Nat) : Bool := 0xd800 ≤ n && n ≤ 0xdbff

def isLow (n : Nat) : Bool := 0xdc00 ≤ n && n ≤ 0xdfff

/-- Joins a high code with the low one that follows it. -/
def joinPair (high : Nat) (rest : List Char) : Nat × List Char :=
  match rest with
  | '\\' :: 'u' :: more =>
    match hexCode? more with
    | some (low, after) =>
      if isHigh high && isLow low then (0x10000 + (high - 0xd800) * 0x400 + (low - 0xdc00), after)
      else (high, rest)
    | none => (high, rest)
  | _ => (high, rest)

def shortEscape? : Char → Option Nat
  | '"' => some 34
  | '\\' => some 92
  | '/' => some 47
  | 'b' => some 8
  | 'f' => some 12
  | 'n' => some 10
  | 'r' => some 13
  | 't' => some 9
  | _ => none

/-- The code points of a text after its opening quote, up to the closing one. -/
def readCodes (dialect : Dialect) : Nat → List Char → Option (List Nat × List Char)
  | 0, _ => none
  | fuel + 1, cs =>
    match cs with
    | '"' :: rest => some ([], rest)
    | '\\' :: 'u' :: rest => do
      let (code, rest) ← hexCode? rest
      let (code, rest) := joinPair code rest
      let (codes, rest) ← readCodes dialect fuel rest
      some (code :: codes, rest)
    | '\\' :: c :: rest => do
      let code ← shortEscape? c
      let (codes, rest) ← readCodes dialect fuel rest
      some (code :: codes, rest)
    | c :: tail =>
      if c.toNat < 0x20 || c == '\\' then none
      else do
        let (codes, rest) ← readCodes dialect fuel tail
        some (dialect.codeOf c tail :: codes, rest)
    | [] => none

def isBroken (codes : List Nat) : Bool := codes.any fun n => isHigh n || isLow n

def readText (dialect : Dialect) (cs : List Char) : Except Fault (Value × List Char) :=
  match readCodes dialect (cs.length + 1) cs with
  | none => .error .malformed
  | some (codes, rest) =>
    if !isBroken codes then .ok (.text (String.ofList (codes.map Char.ofNat)), rest)
    else if dialect.brokenTexts then .ok (.brokenText codes, rest)
    else .error .malformed

def takeDigits (cs : List Char) : List Char × List Char := cs.span Char.isDigit

def digitValues (cs : List Char) : List Nat := cs.map fun c => c.toNat - 48

/-- Digits behind a point; a point without digits is left alone. -/
def readFraction (cs : List Char) : List Char × List Char :=
  match cs with
  | '.' :: rest =>
    match takeDigits rest with
    | ([], _) => ([], cs)
    | (ds, tail) => (ds, tail)
  | _ => ([], cs)

/-- A power of ten; a letter without digits is left alone. -/
def readPower (cs : List Char) : Option Int × List Char :=
  match cs with
  | c :: rest =>
    if c == 'e' || c == 'E' then
      let (negative, unsigned) := Numeral.splitSign rest
      match takeDigits unsigned with
      | ([], _) => (none, cs)
      | (ds, tail) =>
        let n : Int := ofDigits 10 (digitValues ds)
        (some (if negative then -n else n), tail)
    else (none, cs)
  | [] => (none, cs)

def readNumber (dialect : Dialect) (negative : Bool) (cs : List Char) : Except Fault (Value × List Char) :=
  let (whole, rest) :=
    match cs with
    | '0' :: rest => (['0'], rest)
    | _ => takeDigits cs
  if whole.isEmpty then .error .malformed
  else
    let (fraction, rest) := readFraction rest
    let (power, rest) := readPower rest
    let n := ofDigits 10 (digitValues (whole ++ fraction))
    if fraction.isEmpty && power.isNone then
      if whole.length > dialect.digits then .error (.tooManyDigits whole.length)
      else .ok (.int (if negative then -(n : Int) else n), rest)
    else .ok (.float (Binary64.ofDecimal negative n (power.getD 0 - fraction.length)), rest)

/-- What follows a word at the start of a text. -/
def afterWord? (word : List Char) (cs : List Char) : Option (List Char) :=
  if word.isPrefixOf cs then some (cs.drop word.length) else none

def readWord (word : String) (v : Value) (cs : List Char) : Except Fault (Value × List Char) :=
  match afterWord? word.toList cs with
  | some rest => .ok (v, rest)
  | none => .error .malformed

def readScalar (dialect : Dialect) (cs : List Char) : Except Fault (Value × List Char) :=
  match cs with
  | '"' :: rest => readText dialect rest
  | 'n' :: _ => readWord "null" .null cs
  | 't' :: _ => readWord "true" (.bool true) cs
  | 'f' :: _ => readWord "false" (.bool false) cs
  | 'N' :: _ => readWord "NaN" (.float .nan) cs
  | 'I' :: _ => readWord "Infinity" (.float (.infinite false)) cs
  | '-' :: 'I' :: _ => readWord "-Infinity" (.float (.infinite true)) cs
  | '-' :: rest => readNumber dialect true rest
  | _ => readNumber dialect false cs

mutual
/-- A value inside `depth` collections. -/
def readValue (dialect : Dialect) : Nat → Nat → List Char → Except Fault (Value × List Char)
  | 0, _, _ => .error .malformed
  | fuel + 1, depth, cs =>
    match cs with
    | '[' :: rest =>
      match skipSpaces rest with
      | ']' :: after => .ok (.list [], after)
      | start =>
        if depth ≥ dialect.depth then .error .tooDeep
        else do
          let (items, after) ← readItems dialect fuel (depth + 1) start
          .ok (.list items, after)
    | '\x7b' :: rest =>
      match skipSpaces rest with
      | '\x7d' :: after => .ok (.dict [], after)
      | start =>
        if depth ≥ dialect.depth then .error .tooDeep
        else do
          let (entries, after) ← readEntries dialect fuel (depth + 1) start
          .ok (.dict (Value.ofEntries entries), after)
    | _ => readScalar dialect cs

def readItems (dialect : Dialect) : Nat → Nat → List Char → Except Fault (List Value × List Char)
  | 0, _, _ => .error .malformed
  | fuel + 1, depth, cs => do
    let (v, rest) ← readValue dialect fuel depth cs
    match skipSpaces rest with
    | ']' :: after => .ok ([v], after)
    | ',' :: more =>
      let (items, after) ← readItems dialect fuel depth (skipSpaces more)
      .ok (v :: items, after)
    | _ => .error .malformed

def readEntries (dialect : Dialect) : Nat → Nat → List Char → Except Fault (List (Value × Value) × List Char)
  | 0, _, _ => .error .malformed
  | fuel + 1, depth, cs =>
    match cs with
    | '"' :: start => do
      let (key, rest) ← readText dialect start
      match skipSpaces rest with
      | ':' :: more =>
        let (v, rest) ← readValue dialect fuel depth (skipSpaces more)
        match skipSpaces rest with
        | '\x7d' :: after => .ok ([(key, v)], after)
        | ',' :: more =>
          let (entries, after) ← readEntries dialect fuel depth (skipSpaces more)
          .ok ((key, v) :: entries, after)
        | _ => .error .malformed
      | _ => .error .malformed
    | _ => .error .malformed
end

/-- Reads a whole text. Of two entries with one key the last counts. -/
def read (dialect : Dialect) (cs : List Char) : Except Fault Value := do
  let start := skipSpaces cs
  let (v, rest) ← readValue dialect (2 * start.length + 2) 0 start
  if (skipSpaces rest).isEmpty then .ok v else .error .malformed

/-- Object bodies nest as deep as calls are left and may hold broken texts. -/
def bodyDialect : Dialect := ⟨callsLeft, Integer.digitLimit, true, []⟩

/-- The reader of reviews is a library that nests at most 200 deep, and takes characters only. -/
def reviewDialect : Dialect := ⟨200, Integer.digitLimit, false, []⟩

/-- Reads a text that may be broken: halves are allowed inside of texts only. -/
def readRaw (dialect : Dialect) : RawText → Except Fault Value
  | .plain s => read dialect s.toList
  | .broken t => read { dialect with original := t.codes } (RawText.broken t).shape

end CeilingGate.Json
