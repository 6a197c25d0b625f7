import CeilingGate.Text.Raw

/-! Names of pods that a controller generated: a stem, a hash and a random suffix, or a stem and a
suffix, joined by dashes. -/
namespace CeilingGate.Workload

/-- Whether a text starts with a dash, a hash, a dash and a suffix. -/
def startsHashAndSuffix : List Char → Bool
  | '-' :: rest =>
    let (hash, tail) := rest.span Char.isAlphanum
    !hash.isEmpty &&
      (match tail with
      | '-' :: c :: _ => c.isAlphanum
      | _ => false)
  | _ => false

def startsSuffix : List Char → Bool
  | '-' :: c :: _ => c.isAlphanum
  | _ => false

/-- The text before the last place on its first line where a tail starts. -/
def stemBefore? (startsTail : List Char → Bool) : List Char → Option (List Char)
  | [] => none
  | c :: rest =>
    if c == '\n' then none
    else
      match stemBefore? startsTail rest with
      | some stem => some (c :: stem)
      | none => if startsTail (c :: rest) then some [] else none

def stem (cs : List Char) : List Char :=
  match stemBefore? startsHashAndSuffix cs with
  | some s => s
  | none => (stemBefore? startsSuffix cs).getD cs

/-- The name without its generated tail; other names stay. -/
def normaliseName (name : String) : String := String.ofList (stem name.toList)

/-- A half of a pair is neither a dash nor a letter, digit or line feed. -/
def normaliseRaw : RawText → RawText
  | .plain s => normaliseName s
  | .broken t => (RawText.broken t).take (stem (RawText.broken t).shape).length

end CeilingGate.Workload
