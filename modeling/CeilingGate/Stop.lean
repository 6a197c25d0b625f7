import CeilingGate.Integer
import CeilingGate.Text.Raw

/-! How work can end without a result. -/
namespace CeilingGate

/-- The interpreter allows so many calls inside each other. -/
def callLimit : Nat := 1000

/-- The calls that are under way when a text or value is taken apart, about twenty of the program's own. -/
def callsUnderWay : Nat := 20

/-- The calls that are left for taking it apart, which takes at least one for each collection. -/
def callsLeft : Nat := callLimit - callsUnderWay

/-- An outcome that no caller expects: nothing on the way up turns it into an answer. -/
inductive Abort
  | missingCharacter
  | missingEntry (word : String)
  | missingMatch
  | wrongType
  | hugeNumber
  | hugeCode
  | tooDeep
  | tooManyDigits (count : Nat)
  | badPath
  | badEncoding
  | unencodable (t : BrokenText)
  | repeatedName (name : RawText)
  | foreign (typeName : String) (message : RawText)
deriving DecidableEq, Repr

namespace Abort

/-- The kind of an abort, as logs name it. -/
def typeName : Abort → String
  | missingCharacter => "IndexError"
  | missingEntry _ | repeatedName _ => "KeyError"
  | missingMatch => "AttributeError"
  | wrongType => "TypeError"
  | hugeNumber | hugeCode => "OverflowError"
  | tooDeep => "RecursionError"
  | tooManyDigits _ | badPath => "ValueError"
  | badEncoding => "UnicodeDecodeError"
  | unencodable _ => "UnicodeEncodeError"
  | foreign typeName _ => typeName

/-- Where the first halves of a text stand. -/
def encodingProblem (codes : List Nat) : String :=
  let front := codes.takeWhile fun n => !Text.isHalfCode n
  let run := (codes.drop front.length).takeWhile Text.isHalfCode
  let place :=
    match run with
    | [n] =>
      "character '\\u" ++ String.ofList (Text.hexDigits 4 n) ++ "' in position " ++
        toString front.length
    | _ =>
      "characters in position " ++ toString front.length ++ "-" ++
        toString (front.length + run.length - 1)
  "'utf-8' codec can't encode " ++ place ++ ": surrogates not allowed"

def message : Abort → RawText
  | missingCharacter => "string index out of range"
  | missingEntry word => Text.quoted word
  | missingMatch => "'NoneType' object has no attribute 'groupdict'"
  | wrongType => "values have no order"
  | hugeNumber => "int too large to convert to float"
  | hugeCode => "Python int too large to convert to C int"
  | tooDeep => "maximum recursion depth exceeded"
  | tooManyDigits count => Integer.digitCountMessage count
  | badPath => "embedded null byte"
  | badEncoding => "invalid UTF-8"
  | unencodable t => encodingProblem t.codes
  | repeatedName name => name.quoted
  | foreign _ message => message

end Abort

/-- A fault that callers know, or an abort. -/
inductive Stop (Fault : Type)
  | fault (f : Fault)
  | abort (a : Abort)
deriving DecidableEq, Repr

namespace Stop

variable {Fault α : Type}

/-- An outcome that callers know: a result or a fault. -/
def IsAnswer : Except (Stop Fault) α → Prop
  | .error (.abort _) => False
  | _ => True

instance : DecidablePred (IsAnswer : Except (Stop Fault) α → Prop)
  | .ok _ => .isTrue trivial
  | .error (.fault _) => .isTrue trivial
  | .error (.abort _) => .isFalse id

theorem isAnswer_iff {x : Except (Stop Fault) α} : IsAnswer x ↔ ∀ a, x ≠ .error (.abort a) := by
  cases x with
  | ok v => simp [IsAnswer]
  | error stop => cases stop <;> simp [IsAnswer]

theorem isAnswer_iff_exists {x : Except (Stop Fault) α} :
    IsAnswer x ↔ (∃ v, x = .ok v) ∨ ∃ f, x = .error (.fault f) := by
  cases x with
  | ok v => simp [IsAnswer]
  | error stop => cases stop <;> simp [IsAnswer]

end Stop

end CeilingGate
