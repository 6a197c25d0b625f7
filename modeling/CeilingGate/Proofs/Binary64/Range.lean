import CeilingGate.Binary64.Basic
import Mathlib.Tactic.Positivity
import Mathlib.Tactic.Ring

/-! Signs and ranges of doubles. Reading digits, adding numbers of one sign and multiplying by a finite
number never makes an undefined number; only integers are refused for their size. -/
namespace CeilingGate.Binary64

variable {x y : Binary64} {s t : Bool} {n : ℕ}

/-- A number with a sign, which the undefined one has not. -/
structure HasSign (x : Binary64) (negative : Bool) : Prop where
  defined : x ≠ .nan
  sign : x.isNegative = negative

theorem hasSign_finite (s : Bool) (m : ℕ) (e : ℤ) : HasSign (.finite s m e) s := ⟨nofun, rfl⟩

theorem hasSign_infinite (s : Bool) : HasSign (.infinite s) s := ⟨nofun, rfl⟩

/-- A quotient in units of the last place of its mantissa. -/
def inUnits (num den : ℕ) : ℕ :=
  if exponentOf num den ≥ 0 then divideHalfEven num (den * 2 ^ (exponentOf num den).toNat)
  else divideHalfEven (num * 2 ^ (-exponentOf num den).toNat) den

/-- The mantissa and the exponent of a quotient. A mantissa that needs one more bit is halved. -/
def normalized (num den : ℕ) : ℕ × ℤ :=
  if inUnits num den == 2 ^ mantissaBits then (2 ^ (mantissaBits - 1), exponentOf num den + 1)
  else (inUnits num den, exponentOf num den)

theorem ofQuotient_eq (s : Bool) {num : ℕ} (h : num ≠ 0) (den : ℕ) :
    ofQuotient s num den =
      if (normalized num den).2 > maxExponent then .infinite s
      else .finite s (normalized num den).1 (normalized num den).2 := by
  unfold ofQuotient
  rw [if_neg (by simpa using h)]
  rfl

theorem hasSign_ofQuotient (s : Bool) (num den : ℕ) : HasSign (ofQuotient s num den) s := by
  by_cases h : num = 0
  · rw [h]
    exact hasSign_finite ..
  · rw [ofQuotient_eq s h]
    split
    · exact hasSign_infinite s
    · exact hasSign_finite ..

theorem hasSign_ofDecimal (s : Bool) (n : ℕ) (e : ℤ) : HasSign (ofDecimal s n e) s := by
  unfold ofDecimal
  split
  · exact hasSign_finite ..
  · dsimp only
    split
    · exact hasSign_infinite s
    · split
      · exact hasSign_finite ..
      · split <;> exact hasSign_ofQuotient ..

theorem signed_add_neg_iff {m n i j : ℕ} (h : signed s m * 2 ^ i + signed s n * 2 ^ j ≠ 0) :
    decide (signed s m * 2 ^ i + signed s n * 2 ^ j < 0) = s := by
  have hm : (0 : ℤ) ≤ m * 2 ^ i := by positivity
  have hn : (0 : ℤ) ≤ n * 2 ^ j := by positivity
  cases s <;> simp [signed] at h ⊢ <;> omega

/-- Numbers of one sign have a sum of that sign. -/
theorem HasSign.add (hx : HasSign x s) (hy : HasSign y s) : HasSign (x + y) s := by
  change HasSign (Binary64.add x y) s
  cases x with
  | nan => exact (hx.defined rfl).elim
  | infinite a =>
    obtain rfl : a = s := hx.sign
    cases y with
    | nan => exact (hy.defined rfl).elim
    | infinite b =>
      obtain rfl : b = a := hy.sign
      simpa [Binary64.add] using hasSign_infinite b
    | finite b m e => exact hasSign_infinite a
  | finite a m e =>
    obtain rfl : a = s := hx.sign
    cases y with
    | nan => exact (hy.defined rfl).elim
    | infinite b =>
      obtain rfl : b = a := hy.sign
      exact hasSign_infinite b
    | finite b n f =>
      obtain rfl : b = a := hy.sign
      unfold Binary64.add
      dsimp only
      split
      · rw [Bool.and_self]
        exact hasSign_finite ..
      · next hsum =>
        rw [signed_add_neg_iff (by simpa using hsum)]
        split <;> exact hasSign_ofQuotient ..

/-- A number times a finite one other than zero. -/
theorem HasSign.mul_finite (hx : HasSign x s) (t : Bool) {n : ℕ} (hn : n ≠ 0) (f : ℤ) :
    HasSign (x * .finite t n f) (s != t) := by
  change HasSign (Binary64.mul x (.finite t n f)) _
  cases x with
  | nan => exact (hx.defined rfl).elim
  | infinite a =>
    obtain rfl : a = s := hx.sign
    simpa [Binary64.mul, isZero, isNegative, hn] using hasSign_infinite (a != t)
  | finite a m e =>
    obtain rfl : a = s := hx.sign
    unfold Binary64.mul
    dsimp only
    split <;> exact hasSign_ofQuotient ..

/-- What is not zero or less is above zero or undefined. -/
theorem isAtMostZero_eq_false_iff : x.isAtMostZero = false ↔ x.isPositive = true ∨ x = .nan := by
  cases x <;> simp [isAtMostZero, isPositive]

/-! ## Integers -/

/-- From here on integers are refused: half a unit beyond the largest double. -/
def tooLarge : ℕ := 2 ^ 1024 - 2 ^ 970

theorem exponentOf_one (hn : n ≠ 0) : exponentOf n 1 = n.log2 - 52 := by
  have hlog := Nat.log2_self_le hn
  have hone : Nat.log2 1 = 0 := by decide
  unfold exponentOf
  simp only [hone, mantissaBits, minExponent, Nat.cast_zero, sub_zero, Nat.cast_ofNat, one_mul]
  split
  · next hguess =>
    have hbits : ((n.log2 : ℤ) - 53).toNat + 53 = n.log2 := by omega
    rw [hbits, decide_eq_true hlog, if_pos rfl]
    omega
  · next hguess =>
    have hbits : 2 ^ 53 ≤ n * 2 ^ (-((n.log2 : ℤ) - 53)).toNat := by
      calc 2 ^ 53 = 2 ^ n.log2 * 2 ^ (-((n.log2 : ℤ) - 53)).toNat := by
            rw [← pow_add]
            congr 1
            omega
        _ ≤ n * 2 ^ (-((n.log2 : ℤ) - 53)).toNat := Nat.mul_le_mul_right _ hlog
    rw [decide_eq_true hbits, if_pos rfl]
    omega

theorem divideHalfEven_cases (num den : ℕ) :
    (divideHalfEven num den = num / den ∧ 2 * (num % den) ≤ den) ∨
      (divideHalfEven num den = num / den + 1 ∧ den ≤ 2 * (num % den)) := by
  unfold divideHalfEven
  dsimp only
  split
  · next h =>
    refine Or.inr ⟨rfl, ?_⟩
    simp only [Bool.or_eq_true, decide_eq_true_eq, Bool.and_eq_true, beq_iff_eq] at h
    omega
  · next h =>
    refine Or.inl ⟨rfl, ?_⟩
    simp only [Bool.or_eq_true, decide_eq_true_eq, Bool.and_eq_true, beq_iff_eq] at h
    omega

/-- A quotient between two odd multiples of a unit is a tie that goes up. -/
theorem divideHalfEven_odd {num den q : ℕ} (hq : num / den = q) (hodd : q % 2 = 1)
    (h : den ≤ 2 * (num % den)) : divideHalfEven num den = q + 1 := by
  unfold divideHalfEven
  dsimp only
  rw [if_pos, hq]
  simp only [Bool.or_eq_true, decide_eq_true_eq, Bool.and_eq_true, beq_iff_eq, hq]
  omega

/-- Just below the powers that have no double, the mantissa overflows by rounding. -/
theorem divideHalfEven_eq_top {d : ℕ} (hd : 0 < d) (hn : n < 2 ^ 54 * d) :
    divideHalfEven n (2 * d) = 2 ^ 53 ↔ 2 ^ 54 * d - d ≤ n := by
  have hdivision := Nat.div_add_mod n (2 * d)
  have hrest := Nat.mod_lt n (show 0 < 2 * d by omega)
  have hquotient : n / (2 * d) ≤ 2 ^ 53 - 1 := by
    have : n / (2 * d) < 2 ^ 53 := (Nat.div_lt_iff_lt_mul (by omega)).mpr (by omega)
    omega
  by_cases hq : n / (2 * d) = 2 ^ 53 - 1
  · rw [hq] at hdivision
    constructor
    · intro h
      obtain ⟨hdown, -⟩ | ⟨-, hup⟩ := divideHalfEven_cases n (2 * d)
      · omega
      · omega
    · intro h
      have hup : 2 * d ≤ 2 * (n % (2 * d)) := by omega
      exact divideHalfEven_odd hq (by decide) hup
  · have hbelow : 2 * d * (n / (2 * d)) ≤ 2 * d * (2 ^ 53 - 2) := Nat.mul_le_mul_left _ (by omega)
    constructor
    · intro h
      obtain ⟨hdown, -⟩ | ⟨hup, -⟩ := divideHalfEven_cases n (2 * d) <;> omega
    · intro h
      omega

theorem tooLarge_eq : tooLarge = 2 ^ 54 * 2 ^ 970 - 2 ^ 970 := by
  rw [tooLarge, ← pow_add]

theorem normalized_one (hn : n ≠ 0) :
    (normalized n 1).2 = if inUnits n 1 = 2 ^ 53 then (n.log2 : ℤ) - 51 else n.log2 - 52 := by
  unfold normalized
  rw [exponentOf_one hn]
  simp only [mantissaBits, beq_iff_eq]
  split
  · dsimp only
    omega
  · rfl

theorem inUnits_of_log2 {k : ℕ} (hn : n ≠ 0) (h : n.log2 = k + 53) :
    inUnits n 1 = divideHalfEven n (2 * 2 ^ k) := by
  have hexponent : exponentOf n 1 = ((k + 1 : ℕ) : ℤ) := by
    rw [exponentOf_one hn, h]
    push_cast
    ring
  unfold inUnits
  rw [hexponent, if_pos (Int.natCast_nonneg _), Int.toNat_natCast, one_mul, pow_succ']

theorem two_pow_mul_le {j k : ℕ} (hn : n ≠ 0) (h : j + k ≤ n.log2) : 2 ^ j * 2 ^ k ≤ n := by
  rw [← pow_add]
  exact (Nat.pow_le_pow_right (by decide) h).trans (Nat.log2_self_le hn)

theorem lt_two_pow_mul {j k : ℕ} (h : n.log2 < j + k) : n < 2 ^ j * 2 ^ k := by
  rw [← pow_add]
  exact Nat.lt_log2_self.trans_le (Nat.pow_le_pow_right (by decide) h)

/-- The integers of the last binade that has doubles are on either side of the bound, all others are far
from it. -/
theorem normalized_overflows_iff (hn : n ≠ 0) :
    (normalized n 1).2 > maxExponent ↔ tooLarge ≤ n := by
  obtain ⟨k, hk⟩ : ∃ k, k = 970 := ⟨_, rfl⟩
  rw [tooLarge_eq, normalized_one hn, maxExponent, ← hk]
  have hd : 0 < 2 ^ k := Nat.two_pow_pos k
  obtain hlog | hlog | hlog : 54 + k ≤ n.log2 ∨ n.log2 < 53 + k ∨ n.log2 = k + 53 := by omega
  · have hn := two_pow_mul_le hn hlog
    refine iff_of_true ?_ (by omega)
    split <;> omega
  · have hn := lt_two_pow_mul hlog
    refine iff_of_false ?_ (by omega)
    split <;> omega
  · have hlt : n < 2 ^ 54 * 2 ^ k := lt_two_pow_mul (by omega)
    rw [inUnits_of_log2 hn hlog, ← divideHalfEven_eq_top hd hlt, hlog, hk]
    split
    · next h => exact iff_of_true (by decide) h
    · next h => exact iff_of_false (by decide) h

theorem tooLarge_pos : 0 < tooLarge := by
  obtain ⟨k, hk⟩ : ∃ k, k = 970 := ⟨_, rfl⟩
  have hd : 0 < 2 ^ k := Nat.two_pow_pos k
  rw [tooLarge_eq, ← hk]
  omega

/-- An integer has no double exactly if it is as far as that from zero. -/
theorem ofInt?_eq_none_iff (i : ℤ) : ofInt? i = none ↔ tooLarge ≤ i.natAbs := by
  by_cases hi : i.natAbs = 0
  · have hpos := tooLarge_pos
    refine iff_of_false ?_ (by omega)
    rw [Int.natAbs_eq_zero.mp hi]
    decide
  · rw [← normalized_overflows_iff hi]
    unfold ofInt?
    rw [ofQuotient_eq _ hi]
    split_ifs with h <;> simp [h]

theorem ofInt?_defined {i : ℤ} (h : ofInt? i = some x) : x ≠ .nan := by
  have hsign := hasSign_ofQuotient (decide (i < 0)) i.natAbs 1
  unfold ofInt? at h
  split at h
  · cases h
  · cases h
    exact hsign.defined

end CeilingGate.Binary64
