import CeilingGate.Proofs.Quantity.Reading
import Mathlib.Data.ZMod.Basic
import Mathlib.Tactic.NormNum

/-! Quantities are totally ordered by value, and equal ones are filed in one slot. A slot is the residue
of the value for a modulus that ten is invertible for, so it does not depend on how a value is shared out
between coefficient and exponent. -/
namespace CeilingGate

namespace Decimal

variable {a b d : Decimal} {base fuel power : ℕ}

/-! ## Slots -/

theorem powMod_eq (h : power < 2 ^ fuel) : powMod fuel base power = base ^ power % modulus := by
  induction fuel generalizing base power with
  | zero =>
    obtain rfl : power = 0 := by omega
    rfl
  | succ fuel ih =>
    unfold powMod
    by_cases hzero : power = 0
    · subst hzero
      rfl
    · have hhalf : powMod fuel (base * base % modulus) (power / 2) =
          (base * base) ^ (power / 2) % modulus := by
        rw [ih (by omega), ← Nat.pow_mod]
      simp only [beq_iff_eq, hzero, if_false, hhalf]
      rcases Nat.mod_two_eq_zero_or_one power with heven | hodd
      · have hpower : power = 2 * (power / 2) := by omega
        conv_rhs => rw [hpower, pow_mul, sq]
        simp [heven]
      · have hpower : power = 2 * (power / 2) + 1 := by omega
        conv_rhs => rw [hpower, pow_succ, pow_mul, sq]
        simp [hodd]

/-- Ten among the residues. -/
def ten : (ZMod modulus)ˣ where
  val := (10 : ℕ)
  inv := tenInverse
  val_inv := by
    rw [← Nat.cast_mul, ← Nat.cast_one, ZMod.natCast_eq_natCast_iff']
    decide
  inv_val := by
    rw [← Nat.cast_mul, ← Nat.cast_one, ZMod.natCast_eq_natCast_iff']
    decide

/-- The slot without its sign. -/
def residue (d : Decimal) : ℕ :=
  d.coefficient * ((if d.exponent ≥ 0 then 10 else tenInverse) ^ d.exponent.natAbs % modulus) % modulus

theorem slot_eq (d : Decimal) : d.slot = if d.negative then -(d.residue : ℤ) else d.residue := by
  unfold slot residue
  dsimp only
  rw [powMod_eq Nat.lt_log2_self]

theorem cast_residue (d : Decimal) :
    (d.residue : ZMod modulus) = d.coefficient * (ten ^ d.exponent : (ZMod modulus)ˣ) := by
  unfold residue
  rw [ZMod.natCast_mod, Nat.cast_mul, ZMod.natCast_mod, Nat.cast_pow]
  congr 1
  by_cases hexponent : d.exponent ≥ 0
  · obtain ⟨n, hn⟩ := Int.eq_ofNat_of_zero_le hexponent
    rw [if_pos hexponent, hn, Int.natAbs_natCast, zpow_natCast, Units.val_pow_eq_pow_val]
    rfl
  · obtain ⟨n, hn⟩ := Int.eq_ofNat_of_zero_le (a := -d.exponent) (by omega)
    obtain hn : d.exponent = -(n : ℤ) := by omega
    rw [if_neg hexponent, hn, Int.natAbs_neg, Int.natAbs_natCast, zpow_neg, ← inv_zpow, zpow_natCast,
      Units.val_pow_eq_pow_val]
    rfl

/-- Equal magnitudes have coefficients that differ by the zeros between their exponents. -/
theorem coefficient_of_magnitude (h : a.magnitude = b.magnitude) (hle : b.exponent ≤ a.exponent) :
    b.coefficient = a.coefficient * 10 ^ (a.exponent - b.exponent).toNat := by
  have hpower : (10 : ℚ) ^ b.exponent ≠ 0 := by positivity
  rw [magnitude_aligned hle, magnitude] at h
  exact_mod_cast (mul_right_cancel₀ hpower h).symm

theorem residue_of_magnitude (h : a.magnitude = b.magnitude) : a.residue = b.residue := by
  wlog hle : b.exponent ≤ a.exponent generalizing a b
  · exact (this h.symm (by omega)).symm
  have hcast : (a.residue : ZMod modulus) = b.residue := by
    have hexponent : a.exponent = (a.exponent - b.exponent).toNat + b.exponent := by omega
    rw [cast_residue, cast_residue, coefficient_of_magnitude h hle]
    conv_lhs => rw [hexponent, zpow_add, zpow_natCast]
    rw [Units.val_mul, Units.val_pow_eq_pow_val, Nat.cast_mul, Nat.cast_pow, mul_assoc]
    rfl
  rw [ZMod.natCast_eq_natCast_iff'] at hcast
  simpa [residue] using hcast

/-- A number is zero, or has the sign of its slot. -/
theorem slot_cases (d : Decimal) :
    (d.toRat = 0 ∧ d.slot = 0) ∨
      0 < d.coefficient ∧
        ((d.toRat = d.magnitude ∧ d.slot = d.residue) ∨
          (d.toRat = -d.magnitude ∧ d.slot = -d.residue)) := by
  rw [slot_eq]
  unfold toRat magnitude
  by_cases hc : d.coefficient = 0
  · exact Or.inl (by simp [residue, hc])
  · refine Or.inr ⟨Nat.pos_of_ne_zero hc, ?_⟩
    cases hn : d.negative with
    | false => exact Or.inl (by simp)
    | true => exact Or.inr (by simp)

/-- Equal numbers have one slot, the two zeros among them. -/
theorem slot_of_toRat (h : a.toRat = b.toRat) : a.slot = b.slot := by
  obtain ⟨hva, hsa⟩ | ⟨ha, ⟨hva, hsa⟩ | ⟨hva, hsa⟩⟩ := slot_cases a <;>
    obtain ⟨hvb, hsb⟩ | ⟨hb, ⟨hvb, hsb⟩ | ⟨hvb, hsb⟩⟩ := slot_cases b <;>
    rw [hva, hvb] at h <;> rw [hsa, hsb]
  · exact absurd h.symm (magnitude_pos hb).ne'
  · exact absurd h.symm (neg_neg_of_pos (magnitude_pos hb)).ne
  · exact absurd h (magnitude_pos ha).ne'
  · rw [residue_of_magnitude h]
  · have := magnitude_pos ha
    have := magnitude_pos hb
    linarith
  · exact absurd h (neg_neg_of_pos (magnitude_pos ha)).ne
  · have := magnitude_pos ha
    have := magnitude_pos hb
    linarith
  · rw [residue_of_magnitude (neg_injective h)]

end Decimal

namespace Quantity

/-! ## The order -/

variable {a b c : Quantity}

/-- One of three holds, and the other two do not. -/
def ExactlyOne (p q r : Prop) : Prop := (p ∧ ¬ q ∧ ¬ r) ∨ (¬ p ∧ q ∧ ¬ r) ∨ (¬ p ∧ ¬ q ∧ r)

/-- Two quantities are compared by value: one of them is the lesser or they are equal, the other
comparisons follow from that, and equal ones are filed in one slot. -/
structure IsOrdered (a b : Quantity) : Prop where
  one : ExactlyOne (a.lt b = true) (a.eqv b = true) (b.lt a = true)
  le : a.le b = true ↔ a.lt b = true ∨ a.eqv b = true
  gt : a.gt b = true ↔ b.lt a = true
  ge : a.ge b = true ↔ b.lt a = true ∨ a.eqv b = true
  ne : a.ne b = true ↔ a.lt b = true ∨ b.lt a = true
  value : ComparesAs a b a.value.toRat b.value.toRat
  slot : a.eqv b = true → a.slot = b.slot

theorem exactlyOne_of_toRat (x y : ℚ) : ExactlyOne (x < y) (x = y) (y < x) := by
  rcases lt_trichotomy x y with h | rfl | h
  · exact Or.inl ⟨h, h.ne, h.not_gt⟩
  · exact Or.inr (Or.inl ⟨lt_irrefl x, rfl, lt_irrefl x⟩)
  · exact Or.inr (Or.inr ⟨h.not_gt, h.ne', h⟩)

theorem isOrdered (a b : Quantity) : IsOrdered a b where
  one := by
    simp only [(comparesAs_toRat a b).lt, (comparesAs_toRat a b).eqv, (comparesAs_toRat b a).lt]
    exact exactlyOne_of_toRat _ _
  le := by
    rw [le_iff, (comparesAs_toRat a b).lt, (comparesAs_toRat a b).eqv, le_iff_lt_or_eq]
  gt := by rw [gt_iff, (comparesAs_toRat b a).lt]
  ge := by
    rw [ge_iff, (comparesAs_toRat b a).lt, (comparesAs_toRat a b).eqv, le_iff_lt_or_eq, eq_comm]
  ne := by
    rw [ne, Bool.not_eq_true', ← Bool.not_eq_true, (comparesAs_toRat a b).eqv,
      (comparesAs_toRat a b).lt, (comparesAs_toRat b a).lt, ← ne_eq, ne_iff_lt_or_gt]
  value := comparesAs_toRat a b
  slot := fun h => Decimal.slot_of_toRat (Decimal.eqv_iff.mp h)

/-- Quantities are totally ordered by value, whatever they are written as: the order is that of the
rational numbers, for all signs and exponents, and equal quantities are filed in one slot. -/
theorem totally_ordered (a b c : Quantity) :
    IsOrdered a b ∧ (a.lt b = true → b.lt c = true → a.lt c = true) := by
  refine ⟨isOrdered a b, fun hab hbc => ?_⟩
  rw [(comparesAs_toRat _ _).lt] at hab hbc ⊢
  exact hab.trans hbc

end Quantity

end CeilingGate
