import CeilingGate.Quantity.Basic
import Mathlib.Algebra.Field.Rat
import Mathlib.Algebra.Order.Field.Power
import Mathlib.Algebra.Order.Ring.Rat

/-! Decimal numbers as rational numbers, and what being negative means for them. -/
namespace CeilingGate

namespace Decimal

variable {d : Decimal}

/-- The number that a decimal is. -/
def toRat (d : Decimal) : ℚ :=
  (if d.negative then -(d.coefficient : ℚ) else d.coefficient) * (10 : ℚ) ^ d.exponent

/-- A negative zero is not below zero. -/
theorem isNegative_eq_false_iff : d.isNegative = false ↔ 0 ≤ d.toRat := by
  have hpower : (0 : ℚ) < 10 ^ d.exponent := zpow_pos (by norm_num) _
  rw [toRat, mul_nonneg_iff_of_pos_right hpower]
  cases hn : d.negative with
  | false => simp [isNegative, hn]
  | true => simp [isNegative, hn]

theorem sign_nonneg_iff : 0 ≤ d.sign ↔ d.isNegative = false := by
  unfold sign isNegative
  cases hn : d.negative <;> by_cases hc : d.coefficient = 0 <;> simp [hc]

/-- Zero is compared by sign alone. -/
theorem zero_compare (d : Decimal) : zero.compare d = compare 0 d.sign := by
  have hzero : zero.sign = 0 := rfl
  unfold Decimal.compare
  rw [hzero]
  cases compare 0 d.sign <;> rfl

end Decimal

namespace Quantity

variable {q : Quantity}

theorem zero_le_iff : zero.le q = true ↔ q.isNegative = false := by
  have hcompare : zero.value.compare q.value = compare 0 q.value.sign := Decimal.zero_compare _
  rw [isNegative, ← Decimal.sign_nonneg_iff, ← Std.isLE_compare]
  simp only [le, lt, eqv, Decimal.lt, Decimal.eqv, hcompare]
  cases compare 0 q.value.sign <;> simp

end Quantity

end CeilingGate
