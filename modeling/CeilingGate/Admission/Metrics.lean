/-! Counters of decisions and reloads. -/
namespace CeilingGate

structure Metrics where
  allowed : Nat
  denied : Nat
  errors : Nat
  reloads : Nat
  reloadErrors : Nat
deriving DecidableEq, Repr

namespace Metrics

def zero : Metrics := ⟨0, 0, 0, 0, 0⟩

protected def add (a b : Metrics) : Metrics :=
  ⟨a.allowed + b.allowed, a.denied + b.denied, a.errors + b.errors, a.reloads + b.reloads,
    a.reloadErrors + b.reloadErrors⟩

instance : Add Metrics := ⟨Metrics.add⟩

theorem add_eq (a b : Metrics) :
    a + b = ⟨a.allowed + b.allowed, a.denied + b.denied, a.errors + b.errors,
      a.reloads + b.reloads, a.reloadErrors + b.reloadErrors⟩ := rfl

@[simp] theorem add_zero (a : Metrics) : a + zero = a := rfl

@[simp] theorem zero_add (a : Metrics) : zero + a = a := by
  simp [add_eq, zero]

theorem add_assoc (a b c : Metrics) : a + b + c = a + (b + c) := by
  simp [add_eq, Nat.add_assoc]

def oneAllowed : Metrics := { zero with allowed := 1 }

def oneDenied : Metrics := { zero with denied := 1 }

def oneError : Metrics := { zero with errors := 1 }

def oneReload : Metrics := { zero with reloads := 1 }

def oneReloadError : Metrics := { zero with reloadErrors := 1 }

/-- The counters of the answer to one request. -/
def ofDecision (isAllowed : Bool) : Metrics := if isAllowed then oneAllowed else oneDenied

end Metrics

end CeilingGate
