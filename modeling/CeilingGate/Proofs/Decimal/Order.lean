import CeilingGate.Proofs.Decimal.Rational
import Mathlib.Data.Nat.Cast.Order.Ring
import Mathlib.Tactic.Linarith
import Mathlib.Tactic.Positivity

/-! The order of decimals is that of the rational numbers that they are, whatever their exponents. -/
namespace CeilingGate

namespace Decimal

variable {a b d : Decimal} {n : ℕ}

/-- The size of a decimal, without its sign. -/
def magnitude (d : Decimal) : ℚ := d.coefficient * (10 : ℚ) ^ d.exponent

theorem magnitude_pos (h : 0 < d.coefficient) : 0 < d.magnitude := by
  have : (0 : ℚ) < d.coefficient := by exact_mod_cast h
  unfold magnitude
  positivity

theorem lt_pow_digitCount (n : ℕ) : n < 10 ^ digitCount n :=
  (Nat.length_toDigits_le_iff (by decide) Nat.length_toDigits_pos).mp le_rfl

theorem pow_digitCount_le (h : 0 < n) : 10 ^ (digitCount n - 1) ≤ n := by
  by_cases hone : digitCount n - 1 = 0
  · rw [hone]
    exact h
  · by_contra hlt
    have hle : digitCount n ≤ digitCount n - 1 :=
      (Nat.length_toDigits_le_iff (by decide) (by omega)).mpr (not_le.mp hlt)
    omega

/-- The leading digit stands at the adjusted exponent. -/
theorem magnitude_bounds (h : 0 < d.coefficient) :
    (10 : ℚ) ^ d.adjusted ≤ d.magnitude ∧ d.magnitude < (10 : ℚ) ^ (d.adjusted + 1) := by
  have hdigits : 0 < digitCount d.coefficient := Nat.length_toDigits_pos
  have hlow : (10 : ℚ) ^ (digitCount d.coefficient - 1) ≤ d.coefficient := by
    exact_mod_cast pow_digitCount_le h
  have hhigh : (d.coefficient : ℚ) < 10 ^ digitCount d.coefficient := by
    exact_mod_cast lt_pow_digitCount d.coefficient
  have hpower : (0 : ℚ) < 10 ^ d.exponent := by positivity
  have hadjusted : d.adjusted = (digitCount d.coefficient - 1 : ℕ) + d.exponent := by
    unfold adjusted
    omega
  have hnext : d.adjusted + 1 = (digitCount d.coefficient : ℕ) + d.exponent := by omega
  rw [hnext, hadjusted, zpow_add₀ (by norm_num), zpow_add₀ (by norm_num), zpow_natCast, zpow_natCast]
  exact ⟨mul_le_mul_of_nonneg_right hlow hpower.le, mul_lt_mul_of_pos_right hhigh hpower⟩

/-- Leading digits at different places decide. -/
theorem magnitude_lt_of_adjusted (ha : 0 < a.coefficient) (hb : 0 < b.coefficient)
    (h : a.adjusted < b.adjusted) : a.magnitude < b.magnitude :=
  calc
    a.magnitude < 10 ^ (a.adjusted + 1) := (magnitude_bounds ha).2
    _ ≤ 10 ^ b.adjusted := zpow_le_zpow_right₀ (by norm_num) h
    _ ≤ b.magnitude := (magnitude_bounds hb).1

/-- A larger exponent is worked off by zeros behind the coefficient. -/
theorem magnitude_aligned (h : b.exponent ≤ a.exponent) :
    a.magnitude = (a.coefficient * 10 ^ (a.exponent - b.exponent).toNat : ℕ) *
      (10 : ℚ) ^ b.exponent := by
  have hsum : a.exponent = (a.exponent - b.exponent).toNat + b.exponent := by omega
  unfold magnitude
  conv_lhs => rw [hsum]
  rw [zpow_add₀ (by norm_num), zpow_natCast]
  push_cast
  rw [mul_assoc]

theorem compare_mul_pow (m n : ℕ) (e : ℤ) :
    compare ((m : ℚ) * 10 ^ e) ((n : ℚ) * 10 ^ e) = compare m n := by
  have hpower : (0 : ℚ) < 10 ^ e := by positivity
  cases h : compare m n with
  | lt =>
    rw [compare_lt_iff_lt] at h ⊢
    exact mul_lt_mul_of_pos_right (by exact_mod_cast h) hpower
  | eq => rw [compare_eq_iff_eq.mp h, compare_eq_iff_eq]
  | gt =>
    rw [compare_gt_iff_gt] at h ⊢
    exact mul_lt_mul_of_pos_right (by exact_mod_cast h) hpower

theorem compareMagnitudes_eq (ha : 0 < a.coefficient) (hb : 0 < b.coefficient) :
    compareMagnitudes a b = compare a.magnitude b.magnitude := by
  unfold compareMagnitudes
  cases h : compare a.adjusted b.adjusted with
  | lt => exact (compare_lt_iff_lt.mpr (magnitude_lt_of_adjusted ha hb (compare_lt_iff_lt.mp h))).symm
  | gt => exact (compare_gt_iff_gt.mpr (magnitude_lt_of_adjusted hb ha (compare_gt_iff_gt.mp h))).symm
  | eq =>
    dsimp only
    split
    · next hge => rw [magnitude_aligned hge, magnitude, compare_mul_pow]
    · next hlt => rw [magnitude_aligned (not_le.mp hlt).le, magnitude, compare_mul_pow]

/-- A decimal is zero, or its magnitude above zero, or that below zero. -/
theorem sign_cases (d : Decimal) :
    (d.sign = 0 ∧ d.toRat = 0) ∨
      0 < d.coefficient ∧
        ((d.sign = 1 ∧ d.toRat = d.magnitude) ∨ (d.sign = -1 ∧ d.toRat = -d.magnitude)) := by
  unfold sign toRat magnitude
  by_cases hc : d.coefficient = 0
  · exact Or.inl (by simp [hc])
  · refine Or.inr ⟨Nat.pos_of_ne_zero hc, ?_⟩
    cases hn : d.negative with
    | false => exact Or.inl (by simp [hc])
    | true => exact Or.inr (by simp [hc])

/-- Decimals are compared as the rational numbers that they are. -/
theorem compare_eq (a b : Decimal) : a.compare b = compare a.toRat b.toRat := by
  unfold Decimal.compare
  obtain ⟨hsa, hva⟩ | ⟨ha, ⟨hsa, hva⟩ | ⟨hsa, hva⟩⟩ := sign_cases a <;>
    obtain ⟨hsb, hvb⟩ | ⟨hb, ⟨hsb, hvb⟩ | ⟨hsb, hvb⟩⟩ := sign_cases b <;>
    rw [hsa, hsb, hva, hvb]
  · exact (compare_eq_iff_eq.mpr rfl).symm
  · exact (compare_lt_iff_lt.mpr (magnitude_pos hb)).symm
  · exact (compare_gt_iff_gt.mpr (neg_lt_zero.mpr (magnitude_pos hb))).symm
  · exact (compare_gt_iff_gt.mpr (magnitude_pos ha)).symm
  · exact compareMagnitudes_eq ha hb
  · have := magnitude_pos ha
    have := magnitude_pos hb
    exact (compare_gt_iff_gt.mpr (by linarith)).symm
  · exact (compare_lt_iff_lt.mpr (neg_lt_zero.mpr (magnitude_pos ha))).symm
  · have := magnitude_pos ha
    have := magnitude_pos hb
    exact (compare_lt_iff_lt.mpr (by linarith)).symm
  · -- Below zero the larger magnitude is the lesser number.
    change compareMagnitudes b a = _
    rw [compareMagnitudes_eq hb ha]
    cases h : compare b.magnitude a.magnitude with
    | lt => exact (compare_lt_iff_lt.mpr (neg_lt_neg (compare_lt_iff_lt.mp h))).symm
    | eq => exact (compare_eq_iff_eq.mpr (congrArg _ (compare_eq_iff_eq.mp h).symm)).symm
    | gt => exact (compare_gt_iff_gt.mpr (neg_lt_neg (compare_gt_iff_gt.mp h))).symm

theorem lt_iff : a.lt b = true ↔ a.toRat < b.toRat := by
  rw [lt, beq_iff_eq, compare_eq, compare_lt_iff_lt]

theorem eqv_iff : a.eqv b = true ↔ a.toRat = b.toRat := by
  rw [eqv, beq_iff_eq, compare_eq, compare_eq_iff_eq]

end Decimal

namespace Quantity

variable {a b c : Quantity}

theorem le_iff : a.le b = true ↔ a.value.toRat ≤ b.value.toRat := by
  rw [le, Bool.or_eq_true, lt, eqv, Decimal.lt_iff, Decimal.eqv_iff, le_iff_lt_or_eq]

theorem gt_iff : a.gt b = true ↔ b.value.toRat < a.value.toRat := by
  rw [gt_eq_not_le, Bool.not_eq_true', ← Bool.not_eq_true, le_iff, not_le]

theorem ge_iff : a.ge b = true ↔ b.value.toRat ≤ a.value.toRat := by
  rw [ge, Bool.not_eq_true', ← Bool.not_eq_true, lt, Decimal.lt_iff, not_lt]

theorem le_refl (a : Quantity) : a.le a = true := le_iff.mpr le_rfl

theorem le_trans (hab : a.le b = true) (hbc : b.le c = true) : a.le c = true :=
  le_iff.mpr ((le_iff.mp hab).trans (le_iff.mp hbc))

end Quantity

end CeilingGate
