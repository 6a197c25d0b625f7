import CeilingGate.Text.Basic
import CeilingGate.Yaml.Basic

/-! A position in a YAML text, with the column that indentation is measured by. -/
namespace CeilingGate.Yaml

/-- What the end of the text looks like to a reader; the text itself cannot hold this character. -/
def endMark : Char := '\x00'

def isBreak (c : Char) : Bool :=
  c == '\n' || c == '\r' || c == '\u0085' || c == '\u2028' || c == '\u2029'

def isBreakOrEnd (c : Char) : Bool := isBreak c || c == endMark

def isGap (c : Char) : Bool := c == ' ' || c == '\t' || isBreakOrEnd c

/-- A blank, a line break or the end, but no tab. -/
def isSpaceOrEnd (c : Char) : Bool := c == ' ' || isBreakOrEnd c

/-- The characters that a YAML text may hold. -/
def isAllowed (c : Char) : Bool :=
  let n := c.toNat
  n == 0x09 || n == 0x0a || n == 0x0d || (0x20 ≤ n && n ≤ 0x7e) || n == 0x85 ||
    (0xa0 ≤ n && n ≤ 0xd7ff) || (0xe000 ≤ n && n ≤ 0xfffd) || 0x10000 ≤ n

/-- The code units of two bytes each, low byte first or high byte first. -/
def units16? (lowFirst : Bool) : List UInt8 → Option (List Nat)
  | [] => some []
  | [_] => none
  | a :: b :: rest =>
    let unit := if lowFirst then a.toNat + 256 * b.toNat else 256 * a.toNat + b.toNat
    (units16? lowFirst rest).map (unit :: ·)

/-- Joins pairs of units; a unit that lacks its partner is an error. -/
def ofUnits16? : List Nat → Option (List Char)
  | [] => some []
  | [u] => if 0xd800 ≤ u && u ≤ 0xdfff then none else some [Char.ofNat u]
  | u :: v :: rest =>
    if 0xd800 ≤ u && u ≤ 0xdbff && 0xdc00 ≤ v && v ≤ 0xdfff then
      (ofUnits16? rest).map (Char.ofNat (0x10000 + (u - 0xd800) * 0x400 + (v - 0xdc00)) :: ·)
    else if 0xd800 ≤ u && u ≤ 0xdfff then none
    else (ofUnits16? (v :: rest)).map (Char.ofNat u :: ·)

/-- The characters that bytes encode; the first two bytes may announce units of two bytes. -/
def decode? (bytes : List UInt8) : Option (List Char) :=
  match bytes with
  | 0xff :: 0xfe :: _ => (units16? true bytes).bind ofUnits16?
  | 0xfe :: 0xff :: _ => (units16? false bytes).bind ofUnits16?
  | _ => (Text.ofUtf8? bytes).map String.toList

structure Cursor where
  rest : List Char
  index : Nat
  line : Nat
  column : Nat
deriving Repr

namespace Cursor

/-- The start of a text. A byte order mark there is skipped without taking a column. -/
def start (cs : List Char) : Cursor :=
  match cs with
  | '\ufeff' :: rest => ⟨rest, 1, 0, 0⟩
  | _ => ⟨cs, 0, 0, 0⟩

def peek (c : Cursor) : Char := c.rest.headD endMark

def peekAt (c : Cursor) (n : Nat) : Char := (c.rest.drop n).headD endMark

def atEnd (c : Cursor) : Bool := c.rest.isEmpty

/-- Passes one character; a carriage return before a line feed does not yet end the line. -/
def next (c : Cursor) : Cursor :=
  match c.rest with
  | [] => c
  | ch :: rest =>
    if (isBreak ch && ch != '\r') || (ch == '\r' && rest.head? != some '\n') then
      ⟨rest, c.index + 1, c.line + 1, 0⟩
    else ⟨rest, c.index + 1, c.line, if ch == '\ufeff' then c.column else c.column + 1⟩

def skip : Nat → Cursor → Cursor
  | 0, c => c
  | n + 1, c => skip n c.next

/-- The characters ahead that satisfy a test, and the position behind them. -/
def takeWhile (p : Char → Bool) (c : Cursor) : List Char × Cursor :=
  let taken := c.rest.takeWhile p
  (taken, c.skip taken.length)

def skipWhile (p : Char → Bool) (c : Cursor) : Cursor := (c.takeWhile p).2

def skipSpaces (c : Cursor) : Cursor := c.skipWhile (· == ' ')

def skipLine (c : Cursor) : Cursor := c.skipWhile fun ch => !isBreakOrEnd ch

/-- A line break as it counts in texts: nothing where there is none, and a line feed for all but the
two separators of the general punctuation block. -/
def lineBreak (c : Cursor) : List Char × Cursor :=
  match c.rest with
  | '\r' :: '\n' :: _ => (['\n'], c.skip 2)
  | ch :: _ =>
    if ch == '\u2028' || ch == '\u2029' then ([ch], c.next)
    else if isBreak ch then (['\n'], c.next)
    else ([], c)
  | [] => ([], c)

/-- Whether a line starts here with three of the given character and nothing attached. -/
def startsWithMarker (mark : Char) (c : Cursor) : Bool :=
  c.peek == mark && c.peekAt 1 == mark && c.peekAt 2 == mark && isGap (c.peekAt 3)

def atDocumentMarker (c : Cursor) : Bool := c.startsWithMarker '-' || c.startsWithMarker '.'

end Cursor

end CeilingGate.Yaml
