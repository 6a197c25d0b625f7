import CeilingGate.Integer
import CeilingGate.Text.Quoted
import CeilingGate.Value.Basic

/-! Values as messages show them. A value that holds an integer of too many digits has no text. -/
namespace CeilingGate.Value

open CeilingGate.Text

def shownTarget (t : Target) : String :=
  "NameNamespace(name=" ++ t.name.quoted ++ ", namespace=" ++ t.namespaceName.quoted ++ ")"

mutual
def shown? : Value → Option String
  | null => some "None"
  | bool b => some (if b then "True" else "False")
  | int i => Integer.text? i
  | float x => some x.text
  | decimal n => some ("Decimal('" ++ n.text ++ "')")
  | text s => some (quoted s)
  | brokenText codes => some (quotedCodes codes)
  | bytes bs => some (quotedBytes bs)
  | date d => some d.shown
  | moment m => some m.shown
  | quantity q =>
    some ("Quantity(text=" ++ quoted q.text ++ ", value=Decimal('" ++ q.value.text ++ "'))")
  | target t => some (shownTarget t)
  | list items => (shownItems? items).map fun parts => "[" ++ ", ".intercalate parts ++ "]"
  | tuple items =>
    (shownItems? items).map fun parts =>
      match parts with
      | [only] => "(" ++ only ++ ",)"
      | _ => "(" ++ ", ".intercalate parts ++ ")"
  | set [] => some "set()"
  | set items => (shownItems? items).map fun parts => "\x7b" ++ ", ".intercalate parts ++ "\x7d"
  | dict entries =>
    (shownEntries? entries).map fun parts => "\x7b" ++ ", ".intercalate parts ++ "\x7d"

def shownItems? : List Value → Option (List String)
  | [] => some []
  | v :: rest => do
    let first ← shown? v
    let others ← shownItems? rest
    some (first :: others)

def shownEntries? : List (Value × Value) → Option (List String)
  | [] => some []
  | (k, v) :: rest => do
    let key ← shown? k
    let content ← shown? v
    let others ← shownEntries? rest
    some ((key ++ ": " ++ content) :: others)
end

/-- Why a value has no text. -/
inductive Unshown
  | tooManyDigits
  | tooDeep
deriving DecidableEq, Repr

mutual
/-- What keeps a value from being shown first, if each collection with content takes a call and `calls`
are left. -/
def unshown? (calls : Nat) : Value → Option Unshown
  | int i => if (Integer.text? i).isSome then none else some .tooManyDigits
  | list items | tuple items | set items => unshownItem? calls items
  | dict entries => unshownPair? calls entries
  | _ => none

def unshownItem? (calls : Nat) : List Value → Option Unshown
  | [] => none
  | v :: rest =>
    if calls = 0 then some .tooDeep
    else (unshown? (calls - 1) v).or (unshownItem? calls rest)

def unshownPair? (calls : Nat) : List (Value × Value) → Option Unshown
  | [] => none
  | (k, v) :: rest =>
    if calls = 0 then some .tooDeep
    else ((unshown? (calls - 1) k).or (unshown? (calls - 1) v)).or (unshownPair? calls rest)
end

/-- The text of a value: a text is itself, and dates are written as calendars do. -/
def text? : Value → Option RawText
  | text s => some s
  | brokenText codes => some (.ofCodes codes)
  | date d => some d.text
  | moment m => some m.text
  | decimal n => some n.text
  | quantity q => some q.text
  | target t => some t.text
  | v => (shown? v).map .plain

end CeilingGate.Value
