import CeilingGate.Quantity.Reader
import CeilingGate.Value.Key
import CeilingGate.Value.Text

/-! The keys of name overrides: a mapping with a name and a namespace, or one text with a slash
between the two. -/
namespace CeilingGate.Policy.NameKey

/-- A rejected key has a message; a key without an order or an address ends the work. -/
inductive Fault
  | rejected (message : String)
  | wrongType
deriving DecidableEq, Repr

def tooManyDigits : Fault := .rejected Integer.digitLimitMessage

/-- The two halves of a list of pairs, as entries of a mapping. -/
def asPairs? : List Value → Option (List (Value × Value))
  | [] => some []
  | .tuple [k, v] :: rest => (asPairs? rest).map ((k, v) :: ·)
  | _ => none

/-- The text of a part; a part that is missing or nothing is empty. -/
def partText (entries : List (Value × Value)) (key : String) : Except Fault RawText :=
  match Value.find? entries key with
  | none => .ok (.plain "")
  | some v =>
    if v.isTruthy then
      match v.text? with
      | some s => .ok s
      | none => .error tooManyDigits
    else .ok (.plain "")

def isKnown (v : Value) : Bool := Value.sameKey v (.text "name") || Value.sameKey v (.text "namespace")

/-- Keys other than the two known ones are named in order. -/
def refuseUnknown (unknown : List Value) : Except Fault Unit :=
  if unknown.isEmpty then .ok ()
  else
    match Value.sort? unknown with
    | none => .error .wrongType
    | some sorted =>
      match Value.shown? (.list sorted) with
      | some shown => .error (.rejected ("unexpected keys in customNames key: " ++ shown))
      | none => .error tooManyDigits

def ofEntries (entries : List (Value × Value)) : Except Fault Target := do
  refuseUnknown ((entries.map (·.1)).filter fun k => !isKnown k)
  let name ← partText entries "name"
  let namespaceName ← partText entries "namespace"
  return ⟨name, namespaceName⟩

/-- What stands before and behind the first slash. -/
def splitSlash (cs : List Char) : List Char × List Char :=
  let (front, rest) := cs.span (· != '/')
  (front, rest.drop 1)

/-- The target that a text with a slash spells. -/
def ofSlashed? : RawText → Option Target
  | .plain s =>
    if s.toList.contains '/' then
      let (front, back) := splitSlash s.toList
      some ⟨String.ofList back, String.ofList front⟩
    else none
  | .broken t =>
    match t.codes.span (· != '/'.toNat) with
    | (front, _ :: back) => some ⟨.ofCodes back, .ofCodes front⟩
    | (_, []) => none

def malformed (key : Value) : Fault :=
  match key.shown? with
  | some shown =>
    .rejected ("customNames key must be \x7bname, namespace\x7d or 'namespace/name', got " ++ shown)
  | none => tooManyDigits

def read (key : Value) : Except Fault Target :=
  match key with
  | .target t => .ok t
  | .dict entries => ofEntries entries
  | .tuple items =>
    match asPairs? items with
    | some pairs =>
      if pairs.all fun (k, _) => k.isHashable then ofEntries (Value.ofEntries pairs)
      else .error .wrongType
    | none => .error (malformed key)
  | .text s =>
    match ofSlashed? s with
    | some t => .ok t
    | none => .error (malformed key)
  | .brokenText codes =>
    match ofSlashed? (.ofCodes codes) with
    | some t => .ok t
    | none => .error (malformed key)
  | _ => .error (malformed key)

end CeilingGate.Policy.NameKey
