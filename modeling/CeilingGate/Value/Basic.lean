import CeilingGate.Binary64.Text
import CeilingGate.Moment
import CeilingGate.Quantity.Basic
import CeilingGate.Text.Raw

/-! Dynamic values: what a document, an object body or a caller supplies before it has been checked. -/
namespace CeilingGate

/-- A workload's name and namespace; either may be empty. -/
structure Target where
  name : RawText
  namespaceName : RawText
deriving DecidableEq, Repr, Inhabited

def Target.text (t : Target) : RawText := "Name: " ++ t.name ++ ", " ++ t.namespaceName

/-- A `brokenText` holds code points that are no characters, so it is not a valid text. -/
inductive Value
  | null
  | bool (b : Bool)
  | int (i : Int)
  | float (x : Binary64)
  | decimal (n : Numeral)
  | text (s : String)
  | brokenText (codes : List Nat)
  | bytes (bs : List UInt8)
  | date (d : Date)
  | moment (m : Moment)
  | quantity (q : Quantity)
  | target (t : Target)
  | list (items : List Value)
  | tuple (items : List Value)
  | set (items : List Value)
  | dict (entries : List (Value × Value))
deriving Repr, Inhabited

namespace Value

def typeName : Value → String
  | null => "NoneType"
  | bool _ => "bool"
  | int _ => "int"
  | float _ => "float"
  | decimal _ => "Decimal"
  | text _ | brokenText _ => "str"
  | bytes _ => "bytes"
  | date _ => "date"
  | moment _ => "datetime"
  | quantity _ => "Quantity"
  | target _ => "NameNamespace"
  | list _ => "list"
  | tuple _ => "tuple"
  | set _ => "set"
  | dict _ => "dict"

/-- Whether a value is present in the everyday sense: not nothing, zero or empty. -/
def isTruthy : Value → Bool
  | null => false
  | bool b => b
  | int i => i != 0
  | float x => !x.isZero
  | decimal (.number d) => !d.isZero
  | text s => !s.isEmpty
  | brokenText codes => !codes.isEmpty
  | bytes bs => !bs.isEmpty
  | list items | tuple items | set items => !items.isEmpty
  | dict entries => !entries.isEmpty
  | _ => true

mutual
/-- Whether a value can be the key of a mapping. -/
def isHashable : Value → Bool
  | list _ | set _ | dict _ => false
  | tuple items => allHashable items
  | _ => true

def allHashable : List Value → Bool
  | [] => true
  | v :: rest => isHashable v && allHashable rest
end

end Value

def RawText.toValue : RawText → Value
  | plain s => .text s
  | broken b => .brokenText b.codes

end CeilingGate
