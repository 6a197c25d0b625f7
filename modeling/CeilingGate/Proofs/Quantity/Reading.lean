import CeilingGate.Proofs.Decimal.Numeral
import CeilingGate.Proofs.Decimal.Rounding
import CeilingGate.Proofs.Outcome
import CeilingGate.Quantity.Reader

/-! What a text is read as. Without a suffix it is the number that its numeral writes; with one it is that
number times the factor of the suffix, rounded by the format, which changes no product that the format can
represent. So quantities are compared as the products, as far as these are exact. -/
namespace CeilingGate.Quantity

open CeilingGate.Decimal CeilingGate.Text

/-- What a suffix stands for: a power of 1000, or of 1024 if an `i` follows the letter. -/
inductive HasFactor : List Char → ℚ → Prop
  | none : HasFactor [] 1
  | decimal {c : Char} {k : ℤ} (hc : thousands? c = some k) : HasFactor [c] (1000 ^ k)
  | binary {c : Char} {k : ℤ} (hc : thousands? c = some k) (hk : 0 < k) (hsmall : c ≠ 'k') :
      HasFactor [c, 'i'] (1024 ^ k)

/-- A number, and a suffix with its factor. -/
structure Written where
  number : ℚ
  suffix : List Char
  factor : ℚ

namespace Written

def amount (w : Written) : ℚ := w.number * w.factor

/-- Nothing is to be rounded. -/
def IsExact (w : Written) : Prop := w.suffix = [] ∨ IsRepresentable w.amount

end Written

/-- Without the blanks at its ends a text is a numeral with a suffix. -/
structure Writes (s : String) (w : Written) : Prop where
  numeral : ∃ cs, (strip s).toList = cs ++ w.suffix ∧
    Numeral.Spells ((stripEnd (stripStart cs)).filter (· != '_')) w.number
  factor : HasFactor w.suffix w.factor

/-- The value that what is written has as a quantity. -/
structure IsReading (w : Written) (q : Quantity) : Prop where
  plain : w.suffix = [] → q.value.toRat = w.number
  rounded : w.suffix ≠ [] → -999999 ≤ leadingPlace w.amount → RoundsTo28 w.amount q.value.toRat
  tiny : w.suffix ≠ [] → leadingPlace w.amount < -999999 →
    RoundsTo (-1000026) w.amount q.value.toRat
  exact : w.IsExact → q.value.toRat = w.amount

/-- All comparisons of two quantities come out as those of two numbers. -/
structure ComparesAs (q q' : Quantity) (x x' : ℚ) : Prop where
  eqv : q.eqv q' = true ↔ x = x'
  lt : q.lt q' = true ↔ x < x'
  le : q.le q' = true ↔ x ≤ x'
  gt : q.gt q' = true ↔ x > x'
  ge : q.ge q' = true ↔ x ≥ x'

variable {s s' text : String} {q q' : Quantity} {numeral : Numeral} {suffix? : Option Suffix}
  {suffix : Suffix} {unit : ℕ × ℤ} {d v : Decimal} {w w' : Written} {c : Char} {cs t : List Char} {k : ℤ}
  {n u u' : ℚ}

theorem HasFactor.pos (h : HasFactor cs u) : 0 < u := by
  cases h <;> positivity

theorem HasFactor.unique (h : HasFactor cs u) (h' : HasFactor cs u') : u = u' := by
  cases h with
  | none =>
    cases h'
    rfl
  | decimal hc =>
    cases h' with
    | decimal hc' => rw [Option.some.inj (hc.symm.trans hc')]
  | binary hc =>
    cases h' with
    | binary hc' => rw [Option.some.inj (hc.symm.trans hc')]

/-- The letters of a suffix. -/
def suffixText : Option Suffix → List Char
  | none => []
  | some (.plain c) => [c]
  | some (.binary c) => [c, 'i']

theorem splitSuffix_append (cs : List Char) :
    (splitSuffix cs).1 ++ suffixText (splitSuffix cs).2 = cs := by
  unfold splitSuffix
  split
  · next c rest hrev =>
    have hcs : cs = rest.reverse ++ [c, 'i'] := by simpa using congrArg List.reverse hrev
    split
    · exact hcs.symm
    · simp [suffixText]
  · next c rest _ hrev =>
    have hcs : cs = rest.reverse ++ [c] := by simpa using congrArg List.reverse hrev
    split
    · exact hcs.symm
    · simp [suffixText]
  · simp [suffixText]

theorem isUnitLetter_of_thousands (hc : thousands? c = some k) : isUnitLetter c = true := by
  rw [isUnitLetter, hc]
  rfl

theorem unitLetter_plain (h : isUnitLetter c = true ∨ c = 'i') :
    isBlank c = false ∧ c ≠ '_' ∧ c ≠ '.' ∧ digitValue? c = none := by
  obtain h | rfl := h
  · unfold isUnitLetter thousands? at h
    split at h <;> first | decide | cases h
  · decide

theorem strip_last (hb : isBlank c = false) (cs : List Char) :
    ∃ rest, stripEnd (stripStart (cs ++ [c])) = rest ++ [c] := by
  refine ⟨cs.dropWhile isBlank, ?_⟩
  have hstart : stripStart (cs ++ [c]) = cs.dropWhile isBlank ++ [c] := by
    unfold stripStart
    rw [List.dropWhile_append]
    split
    · next h => simp [hb, List.isEmpty_iff.mp h]
    · rfl
  simp [hstart, stripEnd, hb]

/-- A number does not end in a letter of a suffix. -/
theorem not_spells_unitLetter (h : isUnitLetter c = true ∨ c = 'i') :
    ¬ Numeral.Spells ((stripEnd (stripStart (cs ++ [c]))).filter (· != '_')) n := by
  intro hspells
  obtain ⟨hblank, hunderscore, hpoint, hdigit⟩ := unitLetter_plain h
  obtain ⟨rest, hrest⟩ := strip_last hblank cs
  obtain ⟨c', hc', hplain⟩ := hspells.endsInDigit
  have hkept : [c].filter (· != '_') = [c] := by simp [hunderscore]
  rw [hrest, List.filter_append, hkept] at hc'
  obtain rfl : c = c' := by simpa using hc'
  exact hplain.elim hpoint (· hdigit)

/-- A number and a suffix are split where they meet. -/
theorem splitSuffix_of_hasFactor (hf : HasFactor t u)
    (hspells : Numeral.Spells ((stripEnd (stripStart cs)).filter (· != '_')) n) :
    (splitSuffix (cs ++ t)).1 = cs ∧ suffixText (splitSuffix (cs ++ t)).2 = t := by
  cases hf with
  | none =>
    rw [List.append_nil]
    have hlast : ∀ c rest, cs.reverse = c :: rest → ¬ (isUnitLetter c = true ∨ c = 'i') := by
      intro c rest hrev hc
      obtain rfl : cs = rest.reverse ++ [c] := by simpa using congrArg List.reverse hrev
      exact not_spells_unitLetter hc hspells
    unfold splitSuffix
    split
    · next hrev => exact absurd (Or.inr rfl) (hlast _ _ hrev)
    · next c rest _ hrev =>
      rw [if_neg fun hc => hlast _ _ hrev (Or.inl hc)]
      exact ⟨rfl, rfl⟩
    · exact ⟨rfl, rfl⟩
  | @decimal c k hc =>
    have hletter := isUnitLetter_of_thousands hc
    unfold splitSuffix
    rw [List.reverse_append, List.reverse_singleton, List.singleton_append]
    split
    · next hrev =>
      obtain ⟨rfl, _⟩ := List.cons.inj hrev
      cases hletter
    · next c' rest _ hrev =>
      obtain ⟨rfl, rfl⟩ := List.cons.inj hrev
      simp [hletter, suffixText]
    · next hrev => cases hrev
  | @binary c k hc hk hsmall =>
    have hletter := isUnitLetter_of_thousands hc
    simp [splitSuffix, hletter, suffixText]

/-- A text writes one number and one suffix. -/
theorem Writes.unique (h : Writes s w) (h' : Writes s w') : w = w' := by
  obtain ⟨⟨cs, hcs, hn⟩, hf⟩ := h
  obtain ⟨⟨cs', hcs', hn'⟩, hf'⟩ := h'
  obtain ⟨hcut, hsuffix⟩ := splitSuffix_of_hasFactor hf hn
  obtain ⟨hcut', hsuffix'⟩ := splitSuffix_of_hasFactor hf' hn'
  rw [← hcs] at hcut hsuffix
  rw [← hcs'] at hcut' hsuffix'
  obtain ⟨number, suffix, factor⟩ := w
  obtain ⟨number', suffix', factor'⟩ := w'
  obtain rfl : suffix = suffix' := hsuffix.symm.trans hsuffix'
  obtain rfl : cs = cs' := hcut.symm.trans hcut'
  obtain rfl := hf.unique hf'
  obtain rfl := hn.unique hn'
  rfl

/-- A unit is the factor of its suffix. -/
theorem hasFactor_of_unit (h : suffix.unit? = some unit) :
    HasFactor (suffixText (some suffix)) (unit.1 * (10 : ℚ) ^ unit.2) := by
  unfold Suffix.unit? at h
  split at h
  · next c =>
    obtain ⟨k, hk, rfl⟩ := Option.map_eq_some_iff.mp h
    have hpower : (((1 : ℕ) : ℚ) * 10 ^ (3 * k)) = 1000 ^ k := by
      rw [Nat.cast_one, one_mul, zpow_mul]
      norm_num
    rw [hpower]
    exact .decimal hk
  · cases h
  · next c hsmall =>
    obtain ⟨k, hk, h⟩ := Option.bind_eq_some_iff.mp h
    split at h
    · next hpos =>
      cases h
      have hpower : (((1024 ^ k.toNat : ℕ) : ℚ) * 10 ^ (0 : ℤ)) = 1024 ^ k := by
        rw [zpow_zero, mul_one, Nat.cast_pow, ← zpow_natCast, Int.toNat_of_nonneg hpos.le,
          Nat.cast_ofNat]
      rw [hpower]
      exact .binary hk hpos hsmall
    · cases h

/-- A value comes from a number: from the number alone, or scaled by the unit of the suffix. -/
theorem valueOf_eq_ok (h : valueOf text numeral suffix? = .ok v) :
    ∃ d, numeral = .number d ∧
      ((suffix? = none ∧ v = d) ∨
        ∃ suffix unit, suffix? = some suffix ∧ suffix.unit? = some unit ∧ scale? d unit = some v) := by
  unfold valueOf at h
  split at h
  · split at h
    · cases h
      exact ⟨_, rfl, Or.inl ⟨rfl, rfl⟩⟩
    · cases h
  · next suffix =>
    split at h
    · cases h
    · next unit hunit =>
      split at h
      · next d =>
        split at h
        · next value hvalue =>
          cases h
          exact ⟨d, rfl, Or.inr ⟨suffix, unit, rfl, hunit, hvalue⟩⟩
        · cases h
      · cases h
      · cases h

theorem ofText_eq_ok (h : ofText s = .ok q) :
    ∃ numeral, Numeral.parse? (splitSuffix (strip s).toList).1 = some numeral ∧
      q.text = strip s ∧
      valueOf (strip s) numeral (splitSuffix (strip s).toList).2 = .ok q.value := by
  unfold ofText ofStripped at h
  split at h
  · cases h
  · dsimp only at h
    split at h
    · cases h
    · next numeral hn =>
      obtain ⟨v, hv, rfl⟩ := map_eq_ok.mp h
      exact ⟨numeral, hn, rfl, hv⟩

theorem toRat_mul (d : Decimal) (unit : ℕ × ℤ) :
    { d with coefficient := d.coefficient * unit.1, exponent := d.exponent + unit.2 }.toRat =
      d.toRat * (unit.1 * (10 : ℚ) ^ unit.2) := by
  unfold toRat
  rw [zpow_add₀ (by norm_num)]
  push_cast
  split <;> ring

theorem isReading_plain (d : Decimal) (text : String) :
    IsReading ⟨d.toRat, [], 1⟩ ⟨text, d⟩ where
  plain := fun _ => rfl
  rounded := fun h => absurd rfl h
  tiny := fun h => absurd rfl h
  exact := fun _ => (mul_one _).symm

theorem isReading_of_rounds (hne : w.suffix ≠ []) (h : RoundsInFormat w.amount q.value.toRat) :
    IsReading w q where
  plain := fun he => absurd he hne
  rounded := by
    intro _ hplace
    unfold RoundsInFormat at h
    rwa [max_eq_left (by omega)] at h
  tiny := by
    intro _ hplace
    unfold RoundsInFormat at h
    rwa [max_eq_right (by omega)] at h
  exact := by
    rintro (he | hexact)
    · exact absurd he hne
    · exact h.eq_of_representable hexact

/-- What a quantity's value is made of: a plain number, or a product that is rounded. -/
theorem exists_written (h : ofText s = .ok q) :
    ∃ w, Writes s w ∧ IsReading w q ∧
      (w.suffix ≠ [] → RoundsInFormat w.amount q.value.toRat) := by
  obtain ⟨numeral, hparse, _, hvalue⟩ := ofText_eq_ok h
  obtain ⟨d, rfl, hcases⟩ := valueOf_eq_ok hvalue
  have hspells := Numeral.spells_of_parse hparse
  have hsplit := (splitSuffix_append (strip s).toList).symm
  obtain ⟨hnone, hv⟩ | ⟨suffix, unit, hsome, hunit, hscale⟩ := hcases
  · rw [hnone] at hsplit
    refine ⟨⟨d.toRat, [], 1⟩, ⟨⟨_, hsplit, hspells⟩, .none⟩, ?_, fun hne => absurd rfl hne⟩
    obtain ⟨text, value⟩ := q
    obtain rfl : value = d := hv
    exact isReading_plain value text
  · rw [hsome] at hsplit
    have hround : RoundsInFormat (d.toRat * (unit.1 * (10 : ℚ) ^ unit.2)) q.value.toRat := by
      rw [← toRat_mul]
      exact round?_spec hscale
    have hne : suffixText (some suffix) ≠ [] := by
      cases suffix <;> simp [suffixText]
    exact ⟨⟨d.toRat, suffixText (some suffix), unit.1 * (10 : ℚ) ^ unit.2⟩,
      ⟨⟨_, hsplit, hspells⟩, hasFactor_of_unit hunit⟩, isReading_of_rounds hne hround,
      fun _ => hround⟩

theorem comparesAs_toRat (q q' : Quantity) : ComparesAs q q' q.value.toRat q'.value.toRat where
  eqv := eqv_iff
  lt := lt_iff
  le := le_iff
  gt := gt_iff
  ge := ge_iff

/-- Under one suffix a larger number is no lesser quantity, exact or not. -/
theorem le_of_same_suffix (hw : Writes s w) (hw' : Writes s' w') (hr : IsReading w q)
    (hr' : IsReading w' q') (hround : w.suffix ≠ [] → RoundsInFormat w.amount q.value.toRat)
    (hround' : w'.suffix ≠ [] → RoundsInFormat w'.amount q'.value.toRat)
    (hsuffix : w.suffix = w'.suffix) (hle : w.number ≤ w'.number) : q.le q' = true := by
  rw [le_iff]
  by_cases hne : w.suffix = []
  · rwa [hr.plain hne, hr'.plain (hsuffix ▸ hne)]
  · have hfactor : w.factor = w'.factor := hw.factor.unique (hsuffix ▸ hw'.factor)
    refine (hround hne).mono (hround' (hsuffix ▸ hne)) ?_
    unfold Written.amount
    rw [hfactor]
    exact mul_le_mul_of_nonneg_right hle hw'.factor.pos.le

/-- A text that is read as a quantity writes one number and one suffix, and is read as the product,
rounded half to even to 28 digits, or to the last place of the smallest numbers; without a suffix, and
where the format can represent the product, exactly. Two texts that are both exact are compared as the
products, and under one suffix the order of the numbers is kept in any case. -/
theorem ofText_reads (h : ofText s = .ok q) (h' : ofText s' = .ok q') :
    (∃! w, Writes s w) ∧ ∀ w w', Writes s w → Writes s' w' → IsReading w q ∧
      (w.IsExact → w'.IsExact → ComparesAs q q' w.amount w'.amount) ∧
      (w.suffix = w'.suffix → w.number ≤ w'.number → q.le q' = true) := by
  obtain ⟨w, hw, hr, hround⟩ := exists_written h
  obtain ⟨w', hw', hr', hround'⟩ := exists_written h'
  refine ⟨⟨w, hw, fun v hv => hv.unique hw⟩, fun v v' hv hv' => ?_⟩
  obtain rfl := hv.unique hw
  obtain rfl := hv'.unique hw'
  refine ⟨hr, fun hexact hexact' => ?_, le_of_same_suffix hw hw' hr hr' hround hround'⟩
  rw [← hr.exact hexact, ← hr'.exact hexact']
  exact comparesAs_toRat q q'

def oneAndAHalfGibibytes : Quantity := ⟨"1.5Gi", ⟨false, 16106127360, -1⟩⟩

def tenthsOfBytes : Quantity := ⟨"16106127360e-1", ⟨false, 16106127360, -1⟩⟩

theorem ofText_reads_gibibytes :
    ofText " 1.5Gi" = .ok oneAndAHalfGibibytes ∧ ofText "16106127360e-1" = .ok tenthsOfBytes ∧
      (∃! w, Writes " 1.5Gi" w) ∧ ∀ w w', Writes " 1.5Gi" w → Writes "16106127360e-1" w' →
        IsReading w oneAndAHalfGibibytes ∧
        (w.IsExact → w'.IsExact →
          ComparesAs oneAndAHalfGibibytes tenthsOfBytes w.amount w'.amount) ∧
        (w.suffix = w'.suffix → w.number ≤ w'.number →
          oneAndAHalfGibibytes.le tenthsOfBytes = true) := by
  have h : ofText " 1.5Gi" = .ok oneAndAHalfGibibytes := by decide +kernel
  have h' : ofText "16106127360e-1" = .ok tenthsOfBytes := by decide +kernel
  exact ⟨h, h', ofText_reads h h'⟩

/-- A product too small for 28 digits is rounded to fewer, here to none. -/
theorem not_roundsTo28_tiny :
    ∃ w q, Writes "1E-1000030k" w ∧ ofText "1E-1000030k" = .ok q ∧ w.suffix ≠ [] ∧
      ¬ RoundsTo28 w.amount q.value.toRat := by
  let number := Numeral.written false [1] [] (-1000030)
  have hdigits : Numeral.IsDigits ['1', '0', '0', '0', '0', '3', '0'] [1, 0, 0, 0, 0, 3, 0] := by decide
  have hpower : Numeral.IsPower ['E', '-', '1', '0', '0', '0', '0', '3', '0'] (-1000030) :=
    .written (s := ['-']) (Or.inr rfl) .minus hdigits (by simp)
  have hspells : Numeral.Spells ['1', 'E', '-', '1', '0', '0', '0', '0', '3', '0'] number :=
    .mk (w := ['1']) .none (by decide) .none hpower (by simp)
  have hpos : 0 < number * 1000 ^ (1 : ℤ) :=
    mul_pos (Numeral.written_pos (by decide) [] _) (by positivity)
  have hread : ofText "1E-1000030k" = .ok ⟨"1E-1000030k", ⟨false, 0, -1000026⟩⟩ := by
    decide +kernel
  have hnumeral : (strip "1E-1000030k").toList =
      ['1', 'E', '-', '1', '0', '0', '0', '0', '3', '0'] ++ ['k'] := by decide +kernel
  refine ⟨⟨number, ['k'], 1000 ^ (1 : ℤ)⟩, _, ⟨⟨_, hnumeral, hspells⟩, .decimal rfl⟩, hread,
    by simp, fun h => ?_⟩
  have hvalue := h.pos hpos
  simp [toRat] at hvalue

end CeilingGate.Quantity
