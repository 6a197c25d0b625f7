import CeilingGate.Decimal.Order

/-! Resource quantities: a number together with the text that it was written with. They are compared by
value only, so `1Gi` and `1073741824` are equal. -/
namespace CeilingGate

structure Quantity where
  text : String
  value : Decimal
deriving DecidableEq, Repr, Inhabited

namespace Quantity

def zero : Quantity := ⟨"0", .zero⟩

def isZero (q : Quantity) : Bool := q.value.isZero

def isNegative (q : Quantity) : Bool := q.value.isNegative

def eqv (a b : Quantity) : Bool := a.value.eqv b.value

def lt (a b : Quantity) : Bool := a.value.lt b.value

/-- Less or equal. -/
def le (a b : Quantity) : Bool := a.lt b || a.eqv b

theorem le_of_eqv {a b : Quantity} (h : a.eqv b = true) : a.le b = true := by
  simp [le, h]

/-- Greater; the one comparison that denies. -/
def gt (a b : Quantity) : Bool := !a.lt b && !a.eqv b

theorem gt_eq_not_le (a b : Quantity) : a.gt b = !a.le b := by
  simp [gt, le]

def ge (a b : Quantity) : Bool := !a.lt b

def ne (a b : Quantity) : Bool := !a.eqv b

/-- Where a set files a quantity. -/
def slot (q : Quantity) : Int := q.value.slot

/-- Puts a quantity behind all that are not greater. -/
def insertSorted (q : Quantity) : List Quantity → List Quantity
  | [] => [q]
  | p :: rest => if q.lt p then q :: p :: rest else p :: insertSorted q rest

/-- Sorts by value; equal quantities keep their order. -/
def sort (qs : List Quantity) : List Quantity := qs.foldl (fun sorted q => insertSorted q sorted) []

end Quantity

end CeilingGate
