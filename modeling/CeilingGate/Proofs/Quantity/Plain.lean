import CeilingGate.Binary64.Text
import CeilingGate.Proofs.Quantity.Reading
import CeilingGate.Proofs.Yaml.Numerals

/-! Numerals without a suffix, and the texts of doubles, which are such: as quantities they are what they
spell. -/
namespace CeilingGate

open CeilingGate.Text CeilingGate.Yaml

variable {cs w f s p ds fs : List Char} {c : Char} {n y : ℚ} {power : ℤ} {negative : Bool}
  {fraction : List ℕ} {q : Quantity} {word : String}

namespace Numeral

theorem digitValue?_of_isDigit (h : c.isDigit = true) : digitValue? c = some (c.toNat - 48) := by
  obtain ⟨hlow, hhigh⟩ := Scalar.isDigit_bounds h
  have hall : ∀ n ∈ List.range' 48 10, digitValue? (Char.ofNat n) = some (n - 48) := by decide
  simpa using hall c.toNat (List.mem_range'_1.mpr (by omega))

theorem isDigits_of_isDigit (h : ∀ c ∈ cs, c.isDigit = true) :
    IsDigits cs (cs.map fun c => c.toNat - 48) := by
  unfold IsDigits
  rw [List.map_map]
  exact List.map_congr_left fun c hc => digitValue?_of_isDigit (h c hc)

/-- A character that is neither blank nor an underscore. -/
def IsClean (c : Char) : Prop := isBlank c = false ∧ c ≠ '_'

instance : Decidable (IsClean c) := inferInstanceAs (Decidable (_ ∧ _))

/-- Digits of no script are blanks or underscores. -/
theorem clean_of_digit (h : digitValue? c ≠ none) : IsClean c := by
  unfold digitValue? at h
  rw [ne_eq, Option.map_eq_none_iff, ← ne_eq, Option.ne_none_iff_exists'] at h
  obtain ⟨first, hfirst⟩ := h
  have hmem := List.mem_of_find?_eq_some hfirst
  have hrange := List.find?_some hfirst
  simp only [Bool.and_eq_true, decide_eq_true_eq] at hrange
  have hall : ∀ first ∈ digitZeros, ∀ n ∈ List.range' first 10,
      IsClean (Char.ofNat n) := by decide +kernel
  simpa using hall first hmem c.toNat (List.mem_range'_1.mpr hrange)

theorem IsDigits.clean {ds : List ℕ} (h : IsDigits cs ds) : ∀ c ∈ cs, IsClean c :=
  fun c hc => clean_of_digit (h.mem c hc)

theorem IsSign.clean (h : IsSign s negative) : ∀ c ∈ s, IsClean c := by
  cases h with
  | none => simp
  | plus => exact List.forall_mem_singleton.mpr (by decide)
  | minus => exact List.forall_mem_singleton.mpr (by decide)

theorem IsFraction.clean (h : IsFraction f fraction) : ∀ c ∈ f, IsClean c := by
  cases h with
  | none => simp
  | point hw => exact List.forall_mem_cons.mpr ⟨by decide, hw.clean⟩

theorem IsPower.clean (h : IsPower p power) : ∀ c ∈ p, IsClean c := by
  cases h with
  | none => simp
  | written he hs hw hne =>
    refine List.forall_mem_append.mpr ⟨List.forall_mem_cons.mpr ⟨?_, hs.clean⟩, hw.clean⟩
    obtain rfl | rfl := he <;> decide

/-- A number is spelled without blanks and underscores. -/
theorem Spells.clean (h : Spells cs n) : ∀ c ∈ cs, IsClean c := by
  cases h with
  | mk hs hw hf hp hne =>
    simp only [List.forall_mem_append]
    exact ⟨hs.clean, hw.clean, hf.clean, hp.clean⟩

theorem Spells.ne_nil (h : Spells cs n) : cs ≠ [] := by
  rintro rfl
  obtain ⟨c, hc, _⟩ := h.endsInDigit
  cases hc

theorem strip_of_clean (h : ∀ c ∈ cs, IsClean c) : stripEnd (stripStart cs) = cs := by
  have hid : ∀ {cs : List Char}, (∀ c ∈ cs, IsClean c) → cs.dropWhile isBlank = cs := by
    intro cs h
    cases cs with
    | nil => rfl
    | cons c rest => simp [(h c (by simp)).1]
  unfold stripEnd stripStart
  rw [hid h, hid fun c hc => h c (List.mem_reverse.mp hc), List.reverse_reverse]

theorem filter_of_clean (h : ∀ c ∈ cs, IsClean c) : cs.filter (· != '_') = cs :=
  List.filter_eq_self.mpr fun c hc => by simpa using (h c hc).2

/-! ## Rows and points -/

theorem spells_row (h : IsRow cs) : Spells cs (Scalar.number cs) := by
  have hspells := Spells.mk .none (isDigits_of_isDigit h.2) .none .none (by simpa using h.1)
  have hvalue : written false (cs.map fun c => c.toNat - 48) [] 0 = Scalar.number cs := by
    simp [written, Scalar.number, ofDigits]
  rw [← hvalue]
  simpa using hspells

/-- What is put together from a sign, digits, a fraction and a power spells a number. -/
theorem exists_spells (hs : IsSign s negative) (hw : IsRow w) (hf : IsFraction f fraction)
    (hp : IsPower p power) : ∃ y, Spells (s ++ (w ++ (f ++ p))) y :=
  ⟨_, .mk hs (isDigits_of_isDigit hw.2) hf hp (by simp [hw.1])⟩

theorem isFraction_of_isDigit (h : ∀ c ∈ fs, c.isDigit = true) :
    IsFraction ('.' :: fs) (fs.map fun c => c.toNat - 48) := .point (isDigits_of_isDigit h)

theorem exists_spells_numeral (h : IsNumeral cs) : ∃ y, Spells cs y := by
  cases h with
  | whole h => exact ⟨_, spells_row h⟩
  | point h hf =>
    obtain ⟨y, hy⟩ := exists_spells .none h (isFraction_of_isDigit hf.2) .none
    exact ⟨y, by simpa using hy⟩

end Numeral

namespace Quantity

/-- A text that spells a number is read as that number. -/
theorem toRat_of_spells (h : Quantity.ofText word = .ok q) (hs : Numeral.Spells word.toList n) :
    q.value.toRat = n := by
  obtain ⟨w, hw, hr, _⟩ := exists_written h
  have hclean := hs.clean
  have hwrites : Writes word ⟨n, [], 1⟩ := by
    refine ⟨⟨word.toList, ?_, ?_⟩, .none⟩
    · rw [strip, String.toList_ofList, Numeral.strip_of_clean hclean, List.append_nil]
    · rwa [Numeral.strip_of_clean hclean, Numeral.filter_of_clean hclean]
  obtain rfl := hw.unique hwrites
  exact hr.plain rfl

end Quantity

namespace Binary64

open Numeral

theorem isRow_toDigits (n : ℕ) : IsRow (Nat.toDigits 10 n) :=
  ⟨Nat.toDigits_ne_nil, fun _ hc => Nat.isDigit_of_mem_toDigits (by decide) (by decide) hc⟩

theorem isRow_append_zeros (h : IsRow ds) (n : ℕ) : IsRow (ds ++ List.replicate n '0') := by
  refine ⟨by simp [h.1], List.forall_mem_append.mpr ⟨h.2, fun c hc => ?_⟩⟩
  rw [List.eq_of_mem_replicate hc]
  rfl

/-- The power that ends a text in scientific form, with at least two digits. -/
theorem isPower_text (power : ℤ) : ∃ k, IsPower
    ("e" ++ (if power < 0 then "-" else "+") ++
      (if (toString power.natAbs).length < 2 then "0" else "") ++ toString power.natAbs).toList k := by
  have hdigits : ∀ zero : String, (∀ c ∈ zero.toList, c.isDigit = true) →
      ∀ c ∈ zero.toList ++ (toString power.natAbs).toList, c.isDigit = true := by
    intro zero hzero
    rw [Scalar.toList_toString_nat]
    exact List.forall_mem_append.mpr ⟨hzero, (isRow_toDigits _).2⟩
  have hzero : ∀ c ∈ (if (toString power.natAbs).length < 2 then "0" else "").toList,
      c.isDigit = true := by
    split <;> exact List.all_eq_true.mp (by decide)
  have hsign : ∃ negative, IsSign (if power < 0 then "-" else "+").toList negative := by
    split
    · exact ⟨true, .minus⟩
    · exact ⟨false, .plus⟩
  obtain ⟨negative, hsign⟩ := hsign
  have hpower := IsPower.written (Or.inl rfl) hsign (isDigits_of_isDigit (hdigits _ hzero))
    (by simp)
  rw [String.toList_append, String.toList_append, String.toList_append, List.append_assoc]
  exact ⟨_, hpower⟩

/-- The texts of decimals that doubles are written as spell a number. -/
theorem exists_spells_textOfDecimal (n : ℕ) (e : ℤ) (hs : IsSign s negative) :
    ∃ y, Spells (s ++ (textOfDecimal n e).toList) y := by
  unfold textOfDecimal
  obtain ⟨n, e⟩ := Decimal.dropZeros 20 n e
  dsimp only
  have hdigits := isRow_toDigits n
  generalize Nat.toDigits 10 n = digits at hdigits
  generalize e + (digits.length : ℤ) = point
  split
  · split
    · have hzero : IsRow ['0'] := by decide
      have hfraction : ∀ c ∈ List.replicate (-point).toNat '0' ++ digits, c.isDigit = true := by
        refine List.forall_mem_append.mpr ⟨fun c hc => ?_, hdigits.2⟩
        rw [List.eq_of_mem_replicate hc]
        rfl
      obtain ⟨y, hy⟩ := exists_spells hs hzero (isFraction_of_isDigit hfraction) .none
      exact ⟨y, by simpa using hy⟩
    · next hpoint =>
      split
      · have hzero : IsRow ['0'] := by decide
        have hwhole := isRow_append_zeros hdigits (point - digits.length).toNat
        obtain ⟨y, hy⟩ := exists_spells hs hwhole (isFraction_of_isDigit hzero.2) .none
        exact ⟨y, by simpa using hy⟩
      · have hwhole : IsRow (digits.take point.toNat) := by
          refine ⟨?_, fun c hc => hdigits.2 c (List.mem_of_mem_take hc)⟩
          rw [ne_eq, List.take_eq_nil_iff, not_or]
          exact ⟨by omega, hdigits.1⟩
        have hfraction : ∀ c ∈ digits.drop point.toNat, c.isDigit = true :=
          fun c hc => hdigits.2 c (List.mem_of_mem_drop hc)
        obtain ⟨y, hy⟩ := exists_spells hs hwhole (isFraction_of_isDigit hfraction) .none
        exact ⟨y, by simpa using hy⟩
  · obtain ⟨k, hk⟩ := isPower_text (point - 1)
    obtain ⟨d, rest, rfl⟩ := List.exists_cons_of_ne_nil hdigits.1
    have hwhole : IsRow [d] := ⟨by simp, by simpa using hdigits.2 d (by simp)⟩
    have hrest : ∀ c ∈ rest, c.isDigit = true := fun c hc => hdigits.2 c (by simp [hc])
    cases rest with
    | nil =>
      obtain ⟨y, hy⟩ := exists_spells hs hwhole .none hk
      exact ⟨y, by simpa [List.append_assoc] using hy⟩
    | cons d' rest =>
      obtain ⟨y, hy⟩ := exists_spells hs hwhole (isFraction_of_isDigit hrest) hk
      exact ⟨y, by simpa using hy⟩

theorem exists_spells_text (negative : Bool) (m : ℕ) (e : ℤ) :
    ∃ y, Spells (text (.finite negative m e)).toList y := by
  have hsign : IsSign (if negative then "-" else "").toList negative := by
    cases negative
    · exact .none
    · exact .minus
  unfold text
  dsimp only
  rw [String.toList_append]
  by_cases hm : m = 0
  · have hzero : IsRow ['0'] := by decide
    obtain ⟨y, hy⟩ := exists_spells hsign hzero (isFraction_of_isDigit hzero.2) .none
    exact ⟨y, by simpa [hm] using hy⟩
  · obtain ⟨y, hy⟩ := exists_spells_textOfDecimal (shortest m e).1 (shortest m e).2 hsign
    exact ⟨y, by simpa [hm] using hy⟩

/-- Of the doubles only the finite ones have texts that are quantities, and their texts spell what they
are read as. -/
theorem spells_of_ofText {x : Binary64} (h : Quantity.ofText x.text = .ok q) :
    Spells x.text.toList q.value.toRat := by
  cases x with
  | finite negative m e =>
    obtain ⟨y, hy⟩ := exists_spells_text negative m e
    rwa [Quantity.toRat_of_spells h hy]
  | infinite negative =>
    have hfault : ∀ negative, (Quantity.ofText (infinite negative).text).isOk = false := by
      decide +kernel
    have hnot := hfault negative
    rw [h] at hnot
    cases hnot
  | nan =>
    have hnot : (Quantity.ofText nan.text).isOk = false := by decide +kernel
    rw [h] at hnot
    cases hnot

end Binary64

/-! ## Base eight -/

section Octal

variable {xs : List ℕ}

theorem ofDigits_concat (b : ℕ) (xs : List ℕ) (d : ℕ) :
    ofDigits b (xs ++ [d]) = b * ofDigits b xs + d := by
  simp [ofDigits]

theorem ofDigits_le (xs : List ℕ) : ofDigits 8 xs ≤ ofDigits 10 xs := by
  induction xs using List.reverseRecOn with
  | nil => exact Nat.le_refl _
  | append_singleton xs d ih =>
    rw [ofDigits_concat, ofDigits_concat]
    omega

theorem ofDigits_eq_zero_iff : ofDigits 10 xs = 0 ↔ ∀ d ∈ xs, d = 0 := by
  induction xs using List.reverseRecOn with
  | nil => simp [ofDigits]
  | append_singleton xs d ih =>
    rw [ofDigits_concat, List.forall_mem_append, ← ih]
    simp

/-- Digits write the same number in both bases exactly if they are zeros up to the last one. -/
theorem ofDigits_eq_iff : ofDigits 8 xs = ofDigits 10 xs ↔ ∀ d ∈ xs.dropLast, d = 0 := by
  induction xs using List.reverseRecOn with
  | nil => simp [ofDigits]
  | append_singleton xs d _ =>
    have hle := ofDigits_le xs
    rw [List.dropLast_concat, ← ofDigits_eq_zero_iff, ofDigits_concat, ofDigits_concat]
    constructor
    · intro h
      omega
    · intro h
      rw [h] at hle ⊢
      omega

theorem octal_eq_number_iff (h : IsRow cs) :
    octal cs = Scalar.number cs ↔ ∀ c ∈ cs.dropLast, c = '0' := by
  rw [octal, Scalar.number, ofDigits_eq_iff, ← List.map_dropLast, List.forall_mem_map]
  refine forall₂_congr fun c hc => ?_
  obtain ⟨hlow, hhigh⟩ := Scalar.isDigit_bounds (h.2 c (List.mem_of_mem_dropLast hc))
  rw [← Char.toNat_inj]
  change _ ↔ c.toNat = 48
  omega

end Octal

end CeilingGate
