import CeilingGate.Decimal.Rounding
import CeilingGate.Proofs.Decimal.Order
import Mathlib.Data.Int.Log
import Mathlib.Data.Rat.Floor
import Mathlib.Tactic.Ring

/-! Rounding to multiples of a power of ten, a half to the even one. Such a rounding keeps the order of
numbers, also where their last places differ, and leaves alone what is a multiple already. The format
rounds to 28 digits, and the smallest numbers to fewer. -/
namespace CeilingGate.Decimal

variable {d v : Decimal} {x x' y y' g : ℚ} {e e' : ℤ} {p : ℕ}

/-- `y` is a multiple of a power of ten no further from `x` than half of it, and an even multiple if it
is half of it away. -/
def RoundsTo (e : ℤ) (x y : ℚ) : Prop :=
  ∃ m : ℤ, y = m * (10 : ℚ) ^ e ∧ 2 * |x - y| ≤ 10 ^ e ∧ (2 * |x - y| = 10 ^ e → Even m)

def IsMultiple (e : ℤ) (x : ℚ) : Prop := ∃ m : ℤ, x = m * (10 : ℚ) ^ e

/-- The place of the leading digit. -/
def leadingPlace (x : ℚ) : ℤ := Int.log 10 |x|

/-- Rounded to 28 significant digits. -/
def RoundsTo28 (x y : ℚ) : Prop := RoundsTo (leadingPlace x - 27) x y

/-- Rounded to 28 significant digits, or to the last place that the smallest numbers have. -/
def RoundsInFormat (x y : ℚ) : Prop := RoundsTo (max (leadingPlace x - 27) (-1000026)) x y

/-- Zero, or a number of at most 28 digits whose leading digit stands within the format's places. -/
def IsRepresentable (x : ℚ) : Prop :=
  x = 0 ∨ ((∃ c e : ℤ, |c| < 10 ^ 28 ∧ x = c * (10 : ℚ) ^ e) ∧
    -999999 ≤ leadingPlace x ∧ leadingPlace x ≤ 999999)

theorem ten_zpow_pos (e : ℤ) : (0 : ℚ) < 10 ^ e := by positivity

theorem IsMultiple.of_le (h : IsMultiple e' x) (hle : e ≤ e') : IsMultiple e x := by
  obtain ⟨m, rfl⟩ := h
  obtain ⟨k, rfl⟩ := Int.le.dest hle
  refine ⟨m * 10 ^ k, ?_⟩
  rw [zpow_add₀ (by norm_num), zpow_natCast]
  push_cast
  ring

theorem isMultiple_zpow (h : e ≤ e') : IsMultiple e ((10 : ℚ) ^ e') :=
  IsMultiple.of_le ⟨1, by simp⟩ h

theorem isMultiple_zero (e : ℤ) : IsMultiple e 0 := ⟨0, by simp⟩

theorem RoundsTo.neg (h : RoundsTo e x y) : RoundsTo e (-x) (-y) := by
  obtain ⟨m, rfl, hle, heven⟩ := h
  have habs : |-x - -(m * (10 : ℚ) ^ e)| = |x - m * (10 : ℚ) ^ e| := by
    rw [← abs_neg]
    congr 1
    ring
  refine ⟨-m, by push_cast; ring, ?_, ?_⟩
  · rwa [habs]
  · rw [habs]
    exact fun he => (heven he).neg

theorem roundsTo_self (h : IsMultiple e x) : RoundsTo e x x := by
  obtain ⟨m, rfl⟩ := h
  have hpos := ten_zpow_pos e
  refine ⟨m, rfl, by simpa using hpos.le, fun he => ?_⟩
  simp only [sub_self, abs_zero, mul_zero] at he
  exact absurd he hpos.ne

/-- A multiple that is not above a number is not above what the number is rounded to. -/
theorem RoundsTo.le_of_le (h : RoundsTo e x y) (hg : IsMultiple e g) (hle : g ≤ x) : g ≤ y := by
  obtain ⟨m, rfl, hnear, _⟩ := h
  obtain ⟨k, rfl⟩ := hg
  have hpos := ten_zpow_pos e
  by_contra hlt
  have hmk : (m : ℚ) < k := lt_of_mul_lt_mul_right (not_le.mp hlt) hpos.le
  have hstep : (m : ℚ) + 1 ≤ k := by exact_mod_cast hmk
  have hgap : (m : ℚ) * 10 ^ e + 10 ^ e ≤ k * 10 ^ e := by nlinarith
  have hfar := (le_abs_self (x - m * 10 ^ e))
  linarith

theorem RoundsTo.ge_of_ge (h : RoundsTo e x y) (hg : IsMultiple e g) (hle : x ≤ g) : y ≤ g := by
  obtain ⟨k, rfl⟩ := hg
  have hneg : IsMultiple e (-(k * (10 : ℚ) ^ e)) := ⟨-k, by push_cast; ring⟩
  have := h.neg.le_of_le hneg (neg_le_neg hle)
  linarith

theorem RoundsTo.eq_of_multiple (h : RoundsTo e x y) (hx : IsMultiple e x) : y = x :=
  le_antisymm (h.ge_of_ge hx le_rfl) (h.le_of_le hx le_rfl)

/-- Rounding to the multiples of one power keeps the order. -/
theorem RoundsTo.mono (h : RoundsTo e x y) (h' : RoundsTo e x' y') (hle : x ≤ x') : y ≤ y' := by
  obtain ⟨m, rfl, hnear, heven⟩ := h
  obtain ⟨m', rfl, hnear', heven'⟩ := h'
  have hpos := ten_zpow_pos e
  by_contra hlt
  have hmm : (m' : ℚ) < m := lt_of_mul_lt_mul_right (not_le.mp hlt) hpos.le
  have hstep : (m' : ℚ) + 1 ≤ m := by exact_mod_cast hmm
  have hgap : (m' : ℚ) * 10 ^ e + 10 ^ e ≤ m * 10 ^ e := by nlinarith
  have hlow := neg_abs_le (x - m * 10 ^ e)
  have hhigh := le_abs_self (x' - m' * 10 ^ e)
  -- both numbers lie half way between neighbours, of which only one is even
  have htie : 2 * |x - m * 10 ^ e| = 10 ^ e := by linarith
  have htie' : 2 * |x' - m' * 10 ^ e| = 10 ^ e := by linarith
  have hnext : (m : ℚ) * 10 ^ e = (m' + 1) * 10 ^ e := by linarith
  have hnext : m = m' + 1 := by exact_mod_cast mul_right_cancel₀ hpos.ne' hnext
  have := heven htie
  have := heven' htie'
  grind

theorem zpow_leadingPlace_le (hx : x ≠ 0) : (10 : ℚ) ^ leadingPlace x ≤ |x| := by
  exact_mod_cast Int.zpow_log_le_self (b := 10) (by norm_num) (abs_pos.mpr hx)

theorem lt_zpow_leadingPlace (x : ℚ) : |x| < (10 : ℚ) ^ (leadingPlace x + 1) := by
  exact_mod_cast Int.lt_zpow_succ_log_self (b := 10) (by norm_num) |x|

theorem leadingPlace_eq (hlow : (10 : ℚ) ^ e ≤ |x|) (hhigh : |x| < (10 : ℚ) ^ (e + 1)) :
    leadingPlace x = e := by
  have hpos : 0 < |x| := (ten_zpow_pos e).trans_le hlow
  have hle : e ≤ leadingPlace x :=
    (Int.zpow_le_iff_le_log (b := 10) (by norm_num) hpos).mp (by exact_mod_cast hlow)
  have hlt : leadingPlace x < e + 1 :=
    (Int.lt_zpow_iff_log_lt (b := 10) (by norm_num) hpos).mp (by exact_mod_cast hhigh)
  omega

@[simp] theorem leadingPlace_neg (x : ℚ) : leadingPlace (-x) = leadingPlace x := by
  simp [leadingPlace]

theorem RoundsInFormat.neg (h : RoundsInFormat x y) : RoundsInFormat (-x) (-y) := by
  unfold RoundsInFormat
  rw [leadingPlace_neg]
  exact RoundsTo.neg h

theorem RoundsInFormat.nonneg (h : RoundsInFormat x y) (hx : 0 ≤ x) : 0 ≤ y :=
  RoundsTo.le_of_le h (isMultiple_zero _) hx

theorem RoundsInFormat.nonpos (h : RoundsInFormat x y) (hx : x ≤ 0) : y ≤ 0 :=
  RoundsTo.ge_of_ge h (isMultiple_zero _) hx

/-- Of two numbers above zero, whose leading digits may stand at different places. -/
theorem RoundsInFormat.mono_of_pos (h : RoundsInFormat x y) (h' : RoundsInFormat x' y') (hx : 0 < x)
    (hle : x ≤ x') : y ≤ y' := by
  have hx' : 0 < x' := hx.trans_le hle
  have hlow' := zpow_leadingPlace_le hx'.ne'
  have hhigh := lt_zpow_leadingPlace x
  rw [abs_of_pos hx'] at hlow'
  rw [abs_of_pos hx] at hhigh
  have hplaces : leadingPlace x ≤ leadingPlace x' :=
    Int.log_mono_right (abs_pos.mpr hx.ne') (by rw [abs_of_pos hx, abs_of_pos hx']; exact hle)
  unfold RoundsInFormat at h h'
  by_cases hsame : max (leadingPlace x - 27) (-1000026) = max (leadingPlace x' - 27) (-1000026)
  · rw [hsame] at h
    exact RoundsTo.mono h h' hle
  · -- the power of ten at the larger number's leading digit stands between the two
    have hpower : (10 : ℚ) ^ (leadingPlace x + 1) ≤ 10 ^ leadingPlace x' :=
      zpow_le_zpow_right₀ (by norm_num) (by omega)
    exact (h.ge_of_ge (isMultiple_zpow (by omega)) (hhigh.le.trans hpower)).trans
      (h'.le_of_le (isMultiple_zpow (by omega)) hlow')

/-- Rounding in the format keeps the order. -/
theorem RoundsInFormat.mono (h : RoundsInFormat x y) (h' : RoundsInFormat x' y') (hle : x ≤ x') :
    y ≤ y' := by
  obtain hx | hx := lt_or_ge 0 x
  · exact h.mono_of_pos h' hx hle
  · obtain hx' | hx' := lt_or_ge x' 0
    · have := h'.neg.mono_of_pos h.neg (neg_pos.mpr hx') (neg_le_neg hle)
      linarith
    · exact (h.nonpos hx).trans (h'.nonneg hx')

/-- Nothing above zero is rounded to zero where all 28 digits are kept. -/
theorem RoundsTo28.pos (h : RoundsTo28 x y) (hx : 0 < x) : 0 < y := by
  have hlow := zpow_leadingPlace_le hx.ne'
  rw [abs_of_pos hx] at hlow
  exact (ten_zpow_pos _).trans_le (RoundsTo.le_of_le h (isMultiple_zpow (by omega)) hlow)

theorem IsRepresentable.isMultiple (h : IsRepresentable x) :
    IsMultiple (max (leadingPlace x - 27) (-1000026)) x := by
  obtain rfl | ⟨⟨c, e, hc, hx⟩, hlow, _⟩ := h
  · exact isMultiple_zero _
  · by_cases hzero : x = 0
    · exact hzero ▸ isMultiple_zero _
    have hpos := ten_zpow_pos e
    have hsize : |x| < (10 : ℚ) ^ (28 + e) := by
      have hcast : |(c : ℚ)| < 10 ^ 28 := by exact_mod_cast hc
      rw [hx, abs_mul, abs_of_pos hpos, zpow_add₀ (by norm_num)]
      exact mul_lt_mul_of_pos_right (by exact_mod_cast hcast) hpos
    have hplace : leadingPlace x < 28 + e :=
      (zpow_lt_zpow_iff_right₀ (by norm_num)).mp ((zpow_leadingPlace_le hzero).trans_lt hsize)
    exact IsMultiple.of_le ⟨c, hx⟩ (by omega)

theorem RoundsInFormat.eq_of_representable (h : RoundsInFormat x y) (hx : IsRepresentable x) :
    y = x :=
  RoundsTo.eq_of_multiple h hx.isMultiple

theorem abs_sub_quotient (n unit : ℕ) : |(n : ℤ) - (n / unit : ℕ) * unit| = (n % unit : ℕ) := by
  have hn : (n : ℤ) = unit * (n / unit : ℕ) + (n % unit : ℕ) := by
    exact_mod_cast (Nat.div_add_mod n unit).symm
  have hdist : (n : ℤ) - (n / unit : ℕ) * unit = (n % unit : ℕ) := by linarith
  rw [hdist, Nat.abs_cast]

theorem abs_sub_quotient_succ {unit : ℕ} (hpos : 0 < unit) (n : ℕ) :
    |(n : ℤ) - (n / unit + 1 : ℕ) * unit| = (unit - n % unit : ℕ) := by
  have hn : (n : ℤ) = unit * (n / unit : ℕ) + (n % unit : ℕ) := by
    exact_mod_cast (Nat.div_add_mod n unit).symm
  have hdist : (n : ℤ) - (n / unit + 1 : ℕ) * unit = -((unit - n % unit : ℕ) : ℤ) := by
    rw [Nat.cast_sub (Nat.mod_lt n hpos).le, Nat.cast_add_one]
    linarith
  rw [hdist, abs_neg, Nat.abs_cast]

/-- Cutting off digits rounds half to even. -/
theorem roundPlaces_spec (n p : ℕ) :
    2 * |(n : ℤ) - roundPlaces n p * 10 ^ p| ≤ 10 ^ p ∧
      (2 * |(n : ℤ) - roundPlaces n p * 10 ^ p| = 10 ^ p → Even (roundPlaces n p)) := by
  unfold roundPlaces
  split
  · next hp =>
    -- more digits are cut off than there are
    have hn : n < 10 ^ (p - 1) :=
      (lt_pow_digitCount n).trans_le (Nat.pow_le_pow_right (by norm_num) (by omega))
    have hpow : 10 ^ p = 10 * 10 ^ (p - 1) := by
      rw [← pow_succ']
      congr 1
      omega
    refine ⟨?_, fun _ => Even.zero⟩
    rw [Nat.cast_zero, zero_mul, sub_zero, Nat.abs_cast]
    exact_mod_cast (by omega : 2 * n ≤ 10 ^ p)
  · dsimp only
    generalize hunit : 10 ^ p = unit
    have hpos : 0 < unit := hunit ▸ Nat.pow_pos (by norm_num)
    have hcast : (10 : ℤ) ^ p = unit := by exact_mod_cast hunit
    rw [hcast]
    split
    · next hup =>
      rw [abs_sub_quotient_succ hpos]
      constructor
      · have : 2 * (unit - n % unit) ≤ unit := by grind
        exact_mod_cast this
      · intro he
        have : 2 * (unit - n % unit) = unit := by exact_mod_cast he
        rw [Nat.even_add_one, Nat.not_even_iff]
        grind
    · next hdown =>
      rw [abs_sub_quotient]
      constructor
      · have : 2 * (n % unit) ≤ unit := by grind
        exact_mod_cast this
      · intro he
        have : 2 * (n % unit) = unit := by exact_mod_cast he
        rw [Nat.even_iff]
        grind

theorem toRat_eq (d : Decimal) : d.toRat = if d.negative then -d.magnitude else d.magnitude := by
  unfold toRat magnitude
  cases d.negative <;> simp

theorem abs_toRat (d : Decimal) : |d.toRat| = d.magnitude := by
  have hnonneg : 0 ≤ d.magnitude := by
    unfold magnitude
    positivity
  rw [toRat_eq]
  split
  · rw [abs_neg, abs_of_nonneg hnonneg]
  · exact abs_of_nonneg hnonneg

theorem leadingPlace_toRat (h : 0 < d.coefficient) : leadingPlace d.toRat = d.adjusted := by
  obtain ⟨hlow, hhigh⟩ := magnitude_bounds h
  rw [← abs_toRat] at hlow hhigh
  exact leadingPlace_eq hlow hhigh

theorem isMultiple_magnitude (d : Decimal) : IsMultiple d.exponent d.magnitude :=
  ⟨d.coefficient, by simp [magnitude]⟩

theorem roundsTo_magnitude (h : e = d.exponent + p) :
    RoundsTo e d.magnitude
      { d with coefficient := roundPlaces d.coefficient p, exponent := e }.magnitude := by
  obtain ⟨hnear, heven⟩ := roundPlaces_spec d.coefficient p
  have hpos := ten_zpow_pos d.exponent
  have hunit : (10 : ℚ) ^ e = 10 ^ p * 10 ^ d.exponent := by
    rw [h, add_comm, zpow_add₀ (by norm_num), zpow_natCast]
  have hdist : |d.coefficient * (10 : ℚ) ^ d.exponent - roundPlaces d.coefficient p * 10 ^ e| =
      (|(d.coefficient : ℤ) - roundPlaces d.coefficient p * 10 ^ p| : ℤ) * 10 ^ d.exponent := by
    rw [hunit, ← mul_assoc, ← sub_mul, abs_mul, abs_of_pos hpos]
    push_cast
    rfl
  unfold magnitude
  refine ⟨roundPlaces d.coefficient p, by simp, ?_, ?_⟩
  · rw [hdist, hunit, ← mul_assoc]
    exact mul_le_mul_of_nonneg_right (by exact_mod_cast hnear) hpos.le
  · rw [hdist, hunit, ← mul_assoc]
    intro he
    exact_mod_cast heven (by exact_mod_cast mul_right_cancel₀ hpos.ne' he)

/-- Places that a number does not have need no rounding. -/
theorem roundsTo_of_max (h : RoundsTo (max e d.exponent) d.magnitude y) :
    RoundsTo e d.magnitude y := by
  obtain hle | hlt := le_or_gt d.exponent e
  · rwa [max_eq_left hle] at h
  · rw [max_eq_right hlt.le] at h
    rw [h.eq_of_multiple (isMultiple_magnitude d)]
    exact roundsTo_self ((isMultiple_magnitude d).of_le hlt.le)

/-- What is rounded is rounded half to even, to 28 digits where the format has as many places. -/
theorem round?_spec (h : round? d = some v) : RoundsInFormat d.toRat v.toRat := by
  unfold round? at h
  split at h
  · next hzero =>
    cases h
    have hrat : d.toRat = 0 := by simp [toRat, beq_iff_eq.mp hzero]
    rw [hrat]
    exact roundsTo_self (isMultiple_zero _)
  · next hzero =>
    have hcoefficient : 0 < d.coefficient := Nat.pos_of_ne_zero (by simpa using hzero)
    split at h
    · cases h
    · dsimp only at h
      split at h
      · cases h
      · cases h
        have hplace : max (d.exponent + ((digitCount d.coefficient : ℤ) - precision)) minExponent =
            max (leadingPlace d.toRat - 27) (-1000026) := by
          rw [leadingPlace_toRat hcoefficient, adjusted, minExponent, precision]
          congr 1
          push_cast
          ring
        rw [hplace]
        unfold RoundsInFormat
        generalize max (leadingPlace d.toRat - 27) (-1000026) = e
        have hround := roundsTo_of_max (roundsTo_magnitude (d := d) (e := max e d.exponent)
          (p := (max e d.exponent - d.exponent).toNat) (by omega))
        rw [toRat_eq, toRat_eq]
        cases d.negative with
        | false => exact hround
        | true => exact hround.neg

end CeilingGate.Decimal
