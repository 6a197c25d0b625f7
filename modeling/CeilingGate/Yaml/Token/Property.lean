import CeilingGate.Yaml.Token.Basic
import CeilingGate.Yaml.Token.Scalar

/-! Anchors, tags and directives. -/
namespace CeilingGate.Yaml

open CeilingGate.Json (hexValue?)

def isWordChar (ch : Char) : Bool := ch.isAlphanum || ch == '-' || ch == '_'

/-- The name of an anchor or alias, behind its indicator. -/
def propertyName (c : Cursor) : Except Failure (String × Cursor) :=
  let (name, c) := c.next.takeWhile isWordChar
  let ends := isGap c.peek || "?:,]\x7d%@`".toList.contains c.peek
  if name.isEmpty || !ends then .error .malformed else .ok (String.ofList name, c)

def isUriChar (ch : Char) : Bool := ch.isAlphanum || "-;/?:@&=+$,_.!~*'()[]%".toList.contains ch

/-- The bytes that a row of percent signs with two digits each stands for. -/
def percentBytes : Nat → Cursor → Except Failure (List UInt8 × Cursor)
  | 0, c => .ok ([], c)
  | fuel + 1, c =>
    if c.peek == '%' then do
      match hexValue? (c.peekAt 1), hexValue? (c.peekAt 2) with
      | some high, some low =>
        let (more, c) ← percentBytes fuel (c.skip 3)
        return (UInt8.ofNat (16 * high + low) :: more, c)
      | _, _ => throw Failure.malformed
    else .ok ([], c)

def uriParts : Nat → Cursor → Except Failure (List Char × Cursor)
  | 0, c => .ok ([], c)
  | fuel + 1, c => do
    let (part, c) := c.takeWhile fun ch => isUriChar ch && ch != '%'
    if c.peek == '%' then
      let (bytes, c) ← percentBytes (c.rest.length + 1) c
      match Text.ofUtf8? bytes with
      | some s =>
        let (more, c) ← uriParts fuel c
        return (part ++ s.toList ++ more, c)
      | none => throw Failure.malformed
    else return (part, c)

/-- The address part of a tag. -/
def tagUri (c : Cursor) : Except Failure (String × Cursor) := do
  if !isUriChar c.peek then throw Failure.malformed
  let (uri, c) ← uriParts (c.rest.length + 1) c
  return (String.ofList uri, c)

/-- A tag handle: an exclamation mark, or a word between two. -/
def tagHandle (c : Cursor) : Except Failure (String × Cursor) :=
  if c.peek != '!' then .error .malformed
  else if c.peekAt 1 == ' ' then .ok ("!", c.next)
  else
    let (word, after) := c.next.takeWhile isWordChar
    if after.peek == '!' then .ok ("!" ++ String.ofList word ++ "!", after.next)
    else .error .malformed

/-- Whether a second exclamation mark comes before the next space. -/
def hasHandle (c : Cursor) : Bool :=
  (c.next.rest.takeWhile fun ch => !isSpaceOrEnd ch).contains '!'

/-- A tag in angle brackets. -/
def verbatimTag (c : Cursor) : Except Failure (Token × Cursor) := do
  let (uri, c) ← tagUri (c.skip 2)
  if c.peek != '>' then throw Failure.malformed
  return (.tag none uri, c.next)

/-- The handle before the suffix of a tag; a lone exclamation mark is one too. -/
def suffixHandle (c : Cursor) : Except Failure (String × Cursor) :=
  if hasHandle c then tagHandle c else .ok ("!", c.next)

def suffixTag (c : Cursor) : Except Failure (Token × Cursor) := do
  let (handle, c) ← suffixHandle c
  let (suffix, c) ← tagUri c
  return (.tag (some handle) suffix, c)

def tagForm (c : Cursor) : Except Failure (Token × Cursor) :=
  if c.peekAt 1 == '<' then verbatimTag c
  else if isGap (c.peekAt 1) then .ok (.tag none "!", c.next)
  else suffixTag c

/-- A tag: in angle brackets, a lone exclamation mark, or an optional handle and a suffix. -/
def tag (c : Cursor) : Except Failure (Token × Cursor) := do
  let (token, c) ← tagForm c
  if !isSpaceOrEnd c.peek then throw Failure.malformed
  return (token, c)

/-- A number of the version directive. -/
def versionNumber (c : Cursor) : Except Failure (Nat × Cursor) :=
  let (digits, c) := c.takeWhile Char.isDigit
  if digits.isEmpty then .error .malformed
  else if digits.length > Integer.digitLimit then .error .badValue
  else .ok (Text.ofDigits 10 (Json.digitValues digits), c)

def versionDirective (c : Cursor) : Except Failure (Directive × Cursor) := do
  let (major, c) ← versionNumber c.skipSpaces
  if c.peek != '.' then throw Failure.malformed
  let (_, c) ← versionNumber c.next
  if !isSpaceOrEnd c.peek then throw Failure.malformed
  return (.version major, c)

def handleDirective (c : Cursor) : Except Failure (Directive × Cursor) := do
  let (name, c) ← tagHandle c.skipSpaces
  if c.peek != ' ' then throw Failure.malformed
  let (uri, c) ← tagUri c.skipSpaces
  if !isSpaceOrEnd c.peek then throw Failure.malformed
  return (.handle name uri, c)

def namedDirective (name : List Char) (c : Cursor) : Except Failure (Directive × Cursor) :=
  if String.ofList name == "YAML" then versionDirective c
  else if String.ofList name == "TAG" then handleDirective c
  else .ok (.other, c.skipLine)

/-- A directive from its percent sign to the end of the line. -/
def directive (c : Cursor) : Except Failure (Token × Cursor) := do
  let (name, c) := c.next.takeWhile isWordChar
  if name.isEmpty || !isSpaceOrEnd c.peek then throw Failure.malformed
  let (d, c) ← namedDirective name c
  let c ← ignoredLine c
  return (.directive d, c)

end CeilingGate.Yaml
