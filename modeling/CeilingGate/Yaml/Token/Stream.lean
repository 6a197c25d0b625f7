import CeilingGate.Yaml.Token.Property

/-! The tokens of a whole text. Indentation opens and closes block collections, and a key without an
indicator is recognised late, by the colon behind it: its token is then put in where the key began. -/
namespace CeilingGate.Yaml

/-- A place where a key may have begun. It is required when it stands at the block's indentation. -/
structure KeyStart where
  token : Nat
  required : Bool
  index : Nat
  line : Nat
  column : Nat
deriving Repr

structure Lexer where
  cursor : Cursor
  tokens : Array Token
  flowLevel : Nat
  indent : Int
  outer : List Int
  keyAllowed : Bool
  keyStarts : List (Nat × KeyStart)

namespace Lexer

def start (cs : List Char) : Lexer := ⟨.start cs, #[], 0, -1, [], true, []⟩

def inFlow (s : Lexer) : Bool := s.flowLevel != 0

def push (s : Lexer) (t : Token) : Lexer := { s with tokens := s.tokens.push t }

/-- Passes `n` characters that make up one token. -/
def emit (s : Lexer) (n : Nat) (t : Token) : Lexer := { s.push t with cursor := s.cursor.skip n }

/-- Passes blanks, comments and line breaks. A key may begin on a new line of a block. -/
def skipToToken : Nat → Lexer → Lexer
  | 0, s => s
  | fuel + 1, s =>
    let c := s.cursor.skipSpaces
    let c := if c.peek == '#' then c.skipLine else c
    if isBreak c.peek then
      skipToToken fuel
        { s with cursor := c.lineBreak.2, keyAllowed := s.keyAllowed || !s.inFlow }
    else { s with cursor := c }

/-- A key and its colon stand on one line, at most 1024 characters apart. -/
def isStale (s : Lexer) (k : KeyStart) : Bool :=
  k.line != s.cursor.line || s.cursor.index - k.index > 1024

def dropStale (s : Lexer) : Except Failure Lexer :=
  if s.keyStarts.any fun (_, k) => s.isStale k && k.required then .error .malformed
  else .ok { s with keyStarts := s.keyStarts.filter fun (_, k) => !s.isStale k }

/-- Forgets the key that may have begun in this collection. -/
def dropKeyStart (s : Lexer) : Except Failure Lexer :=
  if s.keyStarts.any fun (level, k) => level == s.flowLevel && k.required then .error .malformed
  else .ok { s with keyStarts := s.keyStarts.filter fun (level, _) => level != s.flowLevel }

def saveKeyStart (s : Lexer) : Except Failure Lexer :=
  if s.keyAllowed then do
    let required := !s.inFlow && s.indent == s.cursor.column
    let s ← s.dropKeyStart
    let k : KeyStart :=
      ⟨s.tokens.size, required, s.cursor.index, s.cursor.line, s.cursor.column⟩
    return { s with keyStarts := (s.flowLevel, k) :: s.keyStarts }
  else .ok s

/-- Closes the block collections that are indented further than `column`. -/
def unwindTo (column : Int) : List Int → Int → Array Token → List Int × Int × Array Token
  | [], indent, tokens => ([], indent, tokens)
  | o :: outer, indent, tokens =>
    if indent > column then unwindTo column outer o (tokens.push .blockEnd)
    else (o :: outer, indent, tokens)

def unwind (s : Lexer) (column : Int) : Lexer :=
  if s.inFlow then s
  else
    let (outer, indent, tokens) := unwindTo column s.outer s.indent s.tokens
    { s with outer := outer, indent := indent, tokens := tokens }

/-- Opens a block collection at a column, if it is indented further; its token goes to `position`. -/
def openBlock (s : Lexer) (column : Nat) (position : Nat) (t : Token) : Lexer :=
  if s.indent < column then
    { s with
      outer := s.indent :: s.outer
      indent := column
      tokens := s.tokens.insertIdxIfInBounds position t }
  else s

/-- Opens a block collection at the character ahead, unless a flow collection is open. -/
def openHere (s : Lexer) (t : Token) : Lexer :=
  if s.inFlow then s else s.openBlock s.cursor.column s.tokens.size t

def streamEnd (s : Lexer) : Except Failure Lexer := do
  let s ← (s.unwind (-1)).dropKeyStart
  return { s.push .streamEnd with keyStarts := [] }

def directive (s : Lexer) : Except Failure Lexer := do
  let s ← (s.unwind (-1)).dropKeyStart
  let (t, c) ← Yaml.directive s.cursor
  return { s.push t with cursor := c, keyAllowed := false }

def documentMarker (s : Lexer) (t : Token) : Except Failure Lexer := do
  let s ← (s.unwind (-1)).dropKeyStart
  return { s.emit 3 t with keyAllowed := false }

def flowStart (s : Lexer) (t : Token) : Except Failure Lexer := do
  let s ← s.saveKeyStart
  return { s.emit 1 t with flowLevel := s.flowLevel + 1, keyAllowed := true }

def flowEnd (s : Lexer) (t : Token) : Except Failure Lexer := do
  let s ← s.dropKeyStart
  return { s.emit 1 t with flowLevel := s.flowLevel - 1, keyAllowed := false }

def flowEntry (s : Lexer) : Except Failure Lexer := do
  let s ← s.dropKeyStart
  return { s.emit 1 .flowEntry with keyAllowed := true }

def blockEntry (s : Lexer) : Except Failure Lexer := do
  if !s.inFlow && !s.keyAllowed then throw Failure.malformed
  let s ← (s.openHere .blockSequenceStart).dropKeyStart
  return { s.emit 1 .blockEntry with keyAllowed := true }

def explicitKey (s : Lexer) : Except Failure Lexer := do
  if !s.inFlow && !s.keyAllowed then throw Failure.malformed
  let s ← (s.openHere .blockMappingStart).dropKeyStart
  return { s.emit 1 .key with keyAllowed := !s.inFlow }

def value (s : Lexer) : Except Failure Lexer := do
  match s.keyStarts.find? fun (level, _) => level == s.flowLevel with
  | some (_, k) =>
    let s :=
      { s with
        keyStarts := s.keyStarts.filter fun (level, _) => level != s.flowLevel
        tokens := s.tokens.insertIdxIfInBounds k.token .key }
    let s := if s.inFlow then s else s.openBlock k.column k.token .blockMappingStart
    return { s.emit 1 .value with keyAllowed := false }
  | none =>
    if !s.inFlow && !s.keyAllowed then throw Failure.malformed
    let s ← (s.openHere .blockMappingStart).dropKeyStart
    return { s.emit 1 .value with keyAllowed := !s.inFlow }

/-- An alias, anchor, tag or quoted scalar: all may begin a key. -/
def property (s : Lexer) (read : Cursor → Except Failure (Token × Cursor)) :
    Except Failure Lexer := do
  let s ← s.saveKeyStart
  let (t, c) ← read s.cursor
  return { s.push t with cursor := c, keyAllowed := false }

/-- The token of a quoted scalar's codes. -/
def quotedToken (codes : List Nat) : Token :=
  if codes.any Text.isHalfCode then .brokenScalar codes else .scalar (codes.map Char.ofNat) false

def named (t : String → Token) (c : Cursor) : Except Failure (Token × Cursor) := do
  let (name, c) ← propertyName c
  return (t name, c)

def quoted (double : Bool) (c : Cursor) : Except Failure (Token × Cursor) := do
  let (codes, c) ← quotedScalar double c
  return (quotedToken codes, c)

def blockScalar (s : Lexer) (folded : Bool) : Except Failure Lexer := do
  let s ← s.dropKeyStart
  let (text, c) ← Yaml.blockScalar folded s.indent s.cursor
  return { s.push (.scalar text false) with cursor := c, keyAllowed := true }

def plain (s : Lexer) : Except Failure Lexer := do
  let s ← s.saveKeyStart
  let (text, c, allowed) := plainScalar s.inFlow s.indent s.cursor
  return { s.push (.scalar text true) with cursor := c, keyAllowed := allowed }

/-- Whether a plain scalar begins here. -/
def startsPlain (s : Lexer) : Bool :=
  let ch := s.cursor.peek
  let next := s.cursor.peekAt 1
  !(isGap ch || "-?:,[]\x7b\x7d#&*!|>'\"%@`".toList.contains ch) ||
    (!isGap next && (ch == '-' || (!s.inFlow && (ch == '?' || ch == ':'))))

/-- The token that begins here, chosen by the character ahead. -/
def scan (s : Lexer) : Except Failure Lexer :=
  let c := s.cursor
  let ch := c.peek
  let next := c.peekAt 1
  if c.atEnd then s.streamEnd
  else if ch == '%' && c.column == 0 then s.directive
  else if c.column == 0 && c.startsWithMarker '-' then s.documentMarker .documentStart
  else if c.column == 0 && c.startsWithMarker '.' then s.documentMarker .documentEnd
  else if ch == '[' then s.flowStart .flowSequenceStart
  else if ch == '\x7b' then s.flowStart .flowMappingStart
  else if ch == ']' then s.flowEnd .flowSequenceEnd
  else if ch == '\x7d' then s.flowEnd .flowMappingEnd
  else if ch == ',' then s.flowEntry
  else if ch == '-' && isGap next then s.blockEntry
  else if ch == '?' && (s.inFlow || isGap next) then s.explicitKey
  else if ch == ':' && (s.inFlow || isGap next) then s.value
  else if ch == '*' then s.property (named .alias)
  else if ch == '&' then s.property (named .anchor)
  else if ch == '!' then s.property tag
  else if ch == '|' && !s.inFlow then s.blockScalar false
  else if ch == '>' && !s.inFlow then s.blockScalar true
  else if ch == '\'' || ch == '"' then s.property (quoted (ch == '"'))
  else if s.startsPlain then s.plain
  else .error .malformed

/-- The next token, behind blanks and comments. -/
def step (s : Lexer) : Except Failure Lexer := do
  let s ← (skipToToken (s.cursor.rest.length + 1) s).dropStale
  let s ← (s.unwind s.cursor.column).scan
  s.dropStale

/-- The tokens that no key can be put in front of any more. The others are held back. -/
def available (s : Lexer) : List Token :=
  s.tokens.toList.take (s.keyStarts.foldl (fun n (_, k) => min n k.token) s.tokens.size)

/-- Reads tokens to the end of the text or to the first fault. -/
def run : Nat → Lexer → Lexer × Option Failure
  | 0, s => (s, some .malformed)
  | fuel + 1, s =>
    match s.step with
    | .error f => (s, some f)
    | .ok s => if s.tokens.back? == some .streamEnd then (s, none) else run fuel s

end Lexer

/-- The tokens that are handed on before the first fault, and the fault. -/
def tokens (cs : List Char) : List Token × Option Failure :=
  let (s, fault) := Lexer.run (cs.length + 2) (.start cs)
  (s.available, fault)

end CeilingGate.Yaml
