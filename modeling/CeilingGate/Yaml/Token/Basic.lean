/-! The tokens of a YAML text. -/
namespace CeilingGate.Yaml

inductive Directive
  | version (major : Nat)
  | handle (name tagStart : String)
  | other
deriving DecidableEq, Repr

/-- A scalar is plain when it is written without quotes or a block header; a broken one holds codes
that are no characters. A tag without a handle is complete as it is. -/
inductive Token
  | streamEnd
  | directive (d : Directive)
  | documentStart
  | documentEnd
  | blockSequenceStart
  | blockMappingStart
  | blockEnd
  | flowSequenceStart
  | flowSequenceEnd
  | flowMappingStart
  | flowMappingEnd
  | blockEntry
  | flowEntry
  | key
  | value
  | alias (name : String)
  | anchor (name : String)
  | tag (handle : Option String) (suffix : String)
  | scalar (text : List Char) (plain : Bool)
  | brokenScalar (codes : List Nat)
deriving DecidableEq, Repr

end CeilingGate.Yaml
