import CeilingGate.Json.Reader
import CeilingGate.Yaml.Cursor

/-! The texts of scalars: plain, quoted and block scalars. -/
namespace CeilingGate.Yaml

open CeilingGate.Json (hexValue?)

/-- Whether a plain scalar ends before a character, given what follows it. -/
def endsPlain (inFlow : Bool) (ch : Char) (rest : List Char) : Bool :=
  let next := rest.headD endMark
  isGap ch || (ch == ':' && (isGap next || (inFlow && ",[]\x7b\x7d".toList.contains next))) ||
    (inFlow && ",?[]\x7b\x7d".toList.contains ch)

def plainLength (inFlow : Bool) : List Char → Nat
  | [] => 0
  | ch :: rest => if endsPlain inFlow ch rest then 0 else plainLength inFlow rest + 1

/-- The lines between two parts of a plain scalar: all breaks but the first, or none if a document
marker stands there. -/
def plainBreaks : Nat → Cursor → Option (List Char) × Cursor
  | 0, c => (some [], c)
  | fuel + 1, c =>
    if c.peek == ' ' then plainBreaks fuel c.next
    else if isBreak c.peek then
      let (br, c) := c.lineBreak
      if c.atDocumentMarker then (none, c)
      else
        let (more, c) := plainBreaks fuel c
        (more.map (br ++ ·), c)
    else (some [], c)

/-- How a line break and the breaks after it are folded: a single line feed becomes a blank. -/
def foldBreaks (first more : List Char) : List Char :=
  (if first != ['\n'] then first else if more.isEmpty then [' '] else []) ++ more

/-- The space between two parts of a plain scalar, and whether it spans lines. -/
def plainSpace (c : Cursor) : List Char × Cursor × Bool :=
  let (blanks, c) := c.takeWhile (· == ' ')
  if isBreak c.peek then
    let (first, c) := c.lineBreak
    if c.atDocumentMarker then ([], c, true)
    else
      match plainBreaks (c.rest.length + 1) c with
      | (none, c) => ([], c, true)
      | (some more, c) => (foldBreaks first more, c, true)
  else (blanks, c, false)

/-- A plain scalar from here on, where `space` separates it from the part before. The flag tells
whether a key may start behind it. -/
def plainParts (inFlow : Bool) (indent : Int) : Nat → List Char → Cursor → List Char × Cursor × Bool
  | 0, _, c => ([], c, false)
  | fuel + 1, space, c =>
    let length := plainLength inFlow c.rest
    let part := c.rest.take length
    let (gap, after, broken) := plainSpace (c.skip length)
    if gap.isEmpty || after.peek == '#' || (!inFlow && (after.column : Int) < indent) ||
        plainLength inFlow after.rest == 0 then
      (space ++ part, after, broken)
    else
      let (more, last, allowed) := plainParts inFlow indent fuel gap after
      (space ++ part ++ more, last, allowed)

/-- A plain scalar inside a block indented by `indent`. -/
def plainScalar (inFlow : Bool) (indent : Int) (c : Cursor) : List Char × Cursor × Bool :=
  plainParts inFlow (indent + 1) (c.rest.length + 1) [] c

def escapeText? : Char → Option Char
  | '0' => some '\x00'
  | 'a' => some '\x07'
  | 'b' => some '\x08'
  | 't' | '\t' => some '\t'
  | 'n' => some '\n'
  | 'v' => some '\x0b'
  | 'f' => some '\x0c'
  | 'r' => some '\r'
  | 'e' => some '\x1b'
  | ' ' => some ' '
  | '"' => some '"'
  | '\\' => some '\\'
  | '/' => some '/'
  | 'N' => some '\u0085'
  | '_' => some '\u00a0'
  | 'L' => some '\u2028'
  | 'P' => some '\u2029'
  | _ => none

def escapeDigits? : Char → Option Nat
  | 'x' => some 2
  | 'u' => some 4
  | 'U' => some 8
  | _ => none

/-- Codes beyond the last character are refused. -/
def checkCode (code : Nat) : Except Failure Nat :=
  if code ≥ 2 ^ (31 : Nat) then .error (.abort .hugeCode)
  else if code > 0x10ffff then .error .badValue
  else .ok code

def codeEscape (count : Nat) (c : Cursor) : Except Failure (Nat × Cursor) :=
  let digits := (c.rest.take count).map hexValue?
  if digits.length == count && digits.all Option.isSome then do
    let code ← checkCode (Text.ofDigits 16 (digits.map (·.getD 0)))
    return (code, c.skip count)
  else .error .malformed

/-- The codes of characters. -/
def codesOf (cs : List Char) : List Nat := cs.map Char.toNat

/-- The breaks and indentation of quoted lines; a document marker may not stand there. -/
def quotedBreaks : Nat → Cursor → Except Failure (List Char × Cursor)
  | 0, c => .ok ([], c)
  | fuel + 1, c =>
    if c.atDocumentMarker then .error .malformed
    else
      let c := c.skipWhile fun ch => ch == ' ' || ch == '\t'
      if isBreak c.peek then do
        let (br, c) := c.lineBreak
        let (more, c) ← quotedBreaks fuel c
        return (br ++ more, c)
      else .ok ([], c)

/-- What a backslash introduces. -/
def quotedEscape (c : Cursor) : Except Failure (List Nat × Cursor) :=
  let ch := c.peek
  if c.atEnd then .error .malformed
  else
    match escapeText? ch, escapeDigits? ch with
    | some plain, _ => .ok ([plain.toNat], c.next)
    | none, some count => do
      let (code, c) ← codeEscape count c.next
      return ([code], c)
    | none, none =>
      if isBreak ch then do
        let (breaks, c) ← quotedBreaks (c.rest.length + 1) c.lineBreak.2
        return (codesOf breaks, c)
      else .error .malformed

def stopsQuoted (ch : Char) : Bool := isGap ch || ch == '\'' || ch == '"' || ch == '\\'

/-- The characters of a quoted scalar up to a gap or its closing quote. -/
def quotedWord (double : Bool) : Nat → Cursor → Except Failure (List Nat × Cursor)
  | 0, c => .ok ([], c)
  | fuel + 1, c =>
    let (part, c) := c.takeWhile fun ch => !stopsQuoted ch
    let ch := c.peek
    if !double && ch == '\'' && c.peekAt 1 == '\'' then do
      let (more, c) ← quotedWord double fuel (c.skip 2)
      return (codesOf (part ++ ['\'']) ++ more, c)
    else if (double && ch == '\'') || (!double && (ch == '"' || ch == '\\')) then do
      let (more, c) ← quotedWord double fuel c.next
      return (codesOf (part ++ [ch]) ++ more, c)
    else if double && ch == '\\' then do
      let (decoded, c) ← quotedEscape c.next
      let (more, c) ← quotedWord double fuel c
      return (codesOf part ++ decoded ++ more, c)
    else .ok (codesOf part, c)

def quotedSpace (c : Cursor) : Except Failure (List Char × Cursor) :=
  let (blanks, c) := c.takeWhile fun ch => ch == ' ' || ch == '\t'
  if c.atEnd then .error .malformed
  else if isBreak c.peek then do
    let (first, c) := c.lineBreak
    let (more, c) ← quotedBreaks (c.rest.length + 1) c
    return (foldBreaks first more, c)
  else .ok (blanks, c)

def quotedRest (double : Bool) : Nat → Cursor → Except Failure (List Nat × Cursor)
  | 0, _ => .error .malformed
  | fuel + 1, c => do
    let (word, c) ← quotedWord double (c.rest.length + 1) c
    if c.peek == (if double then '"' else '\'') then return (word, c.next)
    else
      let (space, c) ← quotedSpace c
      let (more, c) ← quotedRest double fuel c
      return (word ++ codesOf space ++ more, c)

/-- A quoted scalar from its opening quote on. -/
def quotedScalar (double : Bool) (c : Cursor) : Except Failure (List Nat × Cursor) :=
  quotedRest double (c.rest.length + 1) c.next

/-- What happens to the line breaks at the end of a block scalar. -/
inductive Chomping
  | strip
  | clip
  | keep
deriving DecidableEq, Repr

def chomping? : Char → Option Chomping
  | '+' => some .keep
  | '-' => some .strip
  | _ => none

def indicatorDigit? (ch : Char) : Option Nat := if ch.isDigit then some (ch.toNat - 48) else none

/-- The optional indicators of a block scalar, in either order. -/
def blockIndicators (c : Cursor) : Chomping × Option Nat × Cursor :=
  match chomping? c.peek, indicatorDigit? c.peek with
  | some chomping, _ =>
    match indicatorDigit? (c.peekAt 1) with
    | some n => (chomping, some n, c.skip 2)
    | none => (chomping, none, c.next)
  | none, some n =>
    match chomping? (c.peekAt 1) with
    | some chomping => (chomping, some n, c.skip 2)
    | none => (.clip, some n, c.next)
  | none, none => (.clip, none, c)

/-- A comment and the end of its line; nothing else may stand before them. -/
def ignoredLine (c : Cursor) : Except Failure Cursor :=
  let c := c.skipSpaces
  let c := if c.peek == '#' then c.skipLine else c
  if isBreakOrEnd c.peek then .ok c.lineBreak.2 else .error .malformed

/-- The empty lines before a block scalar, and the widest indentation among them and the first line
of text. -/
def blockIndentation : Nat → Nat → Cursor → List Char × Nat × Cursor
  | 0, widest, c => ([], widest, c)
  | fuel + 1, widest, c =>
    if c.peek == ' ' then
      let c := c.next
      blockIndentation fuel (max widest c.column) c
    else if isBreak c.peek then
      let (br, c) := c.lineBreak
      let (more, widest, c) := blockIndentation fuel widest c
      (br ++ more, widest, c)
    else ([], widest, c)

def skipIndent (indent : Nat) (c : Cursor) : Cursor :=
  c.skip (min (c.rest.takeWhile (· == ' ')).length (indent - c.column))

/-- Empty lines inside a block scalar. -/
def blockBreaks (indent : Nat) : Nat → Cursor → List Char × Cursor
  | 0, c => ([], c)
  | fuel + 1, c =>
    let c := skipIndent indent c
    if isBreak c.peek then
      let (br, c) := c.lineBreak
      let (more, c) := blockBreaks indent fuel c
      (br ++ more, c)
    else ([], c)

/-- The text between two lines of a block scalar. A single line feed between two lines that start
with text is folded. -/
def blockJoint (folded textBefore textAfter : Bool) (first breaks : List Char) : List Char :=
  if folded && first == ['\n'] && textBefore && textAfter then
    if breaks.isEmpty then [' '] else breaks
  else first ++ breaks

def blockEnding (chomping : Chomping) (first breaks : List Char) : List Char :=
  match chomping with
  | .strip => []
  | .clip => first
  | .keep => first ++ breaks

/-- The lines of a block scalar; the cursor stands behind the indentation of the first one. -/
def blockLines (folded : Bool) (chomping : Chomping) (indent : Nat) :
    Nat → Cursor → List Char × Cursor
  | 0, c => ([], c)
  | fuel + 1, c =>
    let startsWithText := c.peek != ' ' && c.peek != '\t'
    let (line, c) := c.takeWhile fun ch => !isBreakOrEnd ch
    let (first, c) := c.lineBreak
    let (breaks, c) := blockBreaks indent (c.rest.length + 1) c
    if c.column == indent && !c.atEnd then
      let textAfter := c.peek != ' ' && c.peek != '\t'
      let (more, last) := blockLines folded chomping indent fuel c
      (line ++ blockJoint folded startsWithText textAfter first breaks ++ more, last)
    else (line ++ blockEnding chomping first breaks, c)

/-- The empty lines before a block scalar, its indentation and its first line of text. -/
def blockStart (least : Nat) (increment : Option Nat) (c : Cursor) : List Char × Nat × Cursor :=
  match increment with
  | some n =>
    let (leading, c) := blockBreaks (least + n - 1) (c.rest.length + 1) c
    (leading, least + n - 1, c)
  | none =>
    let (leading, widest, c) := blockIndentation (c.rest.length + 1) 0 c
    (leading, max least widest, c)

/-- A block scalar from its indicator on, inside a block indented by `parent`. -/
def blockScalar (folded : Bool) (parent : Int) (c : Cursor) :
    Except Failure (List Char × Cursor) := do
  let (chomping, increment, c) := blockIndicators c.next
  if increment == some 0 || !isSpaceOrEnd c.peek then throw Failure.malformed
  let c ← ignoredLine c
  let (leading, indent, c) := blockStart (max (parent + 1) 1).toNat increment c
  if c.column == indent && !c.atEnd then
    let (text, c) := blockLines folded chomping indent (c.rest.length + 1) c
    return (leading ++ text, c)
  else return (blockEnding chomping [] leading, c)

end CeilingGate.Yaml
