import CeilingGate.Decimal.Numeral
import CeilingGate.Proofs.Decimal.Rational
import Mathlib.Data.List.Induction
import Mathlib.Tactic.FieldSimp
import Mathlib.Tactic.Positivity
import Mathlib.Tactic.Ring

/-! What number a decimal numeral writes: an optional sign, digits of any script with an optional point
among them, and an optional power of ten. A numeral that is read as a number is read as that one, however
many digits it has. -/
namespace CeilingGate

open CeilingGate.Text

namespace Numeral

inductive IsSign : List Char → Bool → Prop
  | none : IsSign [] false
  | plus : IsSign ['+'] false
  | minus : IsSign ['-'] true

/-- Each character is a digit, of the value that is listed. -/
def IsDigits (w : List Char) (ds : List ℕ) : Prop := w.map digitValue? = ds.map some

instance (w : List Char) (ds : List ℕ) : Decidable (IsDigits w ds) :=
  inferInstanceAs (Decidable (w.map digitValue? = ds.map some))

inductive IsFraction : List Char → List ℕ → Prop
  | none : IsFraction [] []
  | point {w : List Char} {ds : List ℕ} (hw : IsDigits w ds) : IsFraction ('.' :: w) ds

inductive IsPower : List Char → ℤ → Prop
  | none : IsPower [] 0
  | written {e : Char} {s w : List Char} {ds : List ℕ} {negative : Bool} (he : e = 'e' ∨ e = 'E')
      (hs : IsSign s negative) (hw : IsDigits w ds) (hne : ds ≠ []) :
      IsPower (e :: s ++ w) (if negative then -(ofDigits 10 ds : ℤ) else ofDigits 10 ds)

/-- The digits in front of the point, and behind it the tenths, hundredths and so on, times the sign and
the power of ten. -/
def written (negative : Bool) (whole fraction : List ℕ) (power : ℤ) : ℚ :=
  (if negative then -1 else 1) *
    (ofDigits 10 whole + ofDigits 10 fraction / 10 ^ fraction.length) * 10 ^ power

inductive Spells : List Char → ℚ → Prop
  | mk {s w f p : List Char} {negative : Bool} {whole fraction : List ℕ} {power : ℤ}
      (hs : IsSign s negative) (hw : IsDigits w whole) (hf : IsFraction f fraction) (hp : IsPower p power)
      (hne : whole ++ fraction ≠ []) :
      Spells (s ++ (w ++ (f ++ p))) (written negative whole fraction power)

variable {cs w : List Char} {negative : Bool} {power : ℤ} {d : Decimal}

theorem ofDigits_append (ds more : List ℕ) :
    ofDigits 10 (ds ++ more) = ofDigits 10 ds * 10 ^ more.length + ofDigits 10 more := by
  induction more using List.reverseRecOn with
  | nil => simp [ofDigits]
  | append_singleton more d ih =>
    have hlast : ∀ ds : List ℕ, ofDigits 10 (ds ++ [d]) = 10 * ofDigits 10 ds + d := by
      simp [ofDigits]
    rw [← List.append_assoc, hlast, hlast, ih, List.length_append, List.length_singleton, pow_succ]
    ring

theorem splitDigits_spec (cs : List Char) :
    ∃ w, cs = w ++ (splitDigits cs).2 ∧ IsDigits w (splitDigits cs).1 := by
  induction cs with
  | nil => exact ⟨[], rfl, rfl⟩
  | cons c rest ih =>
    unfold splitDigits
    split
    · next d hd =>
      obtain ⟨w, hw, hds⟩ := ih
      refine ⟨c :: w, by simpa using hw, ?_⟩
      simpa [IsDigits, hd] using hds
    · exact ⟨[], rfl, rfl⟩

theorem splitSign_spec (cs : List Char) :
    ∃ s, cs = s ++ (splitSign cs).2 ∧ IsSign s (splitSign cs).1 := by
  unfold splitSign
  split
  · exact ⟨['-'], rfl, .minus⟩
  · exact ⟨['+'], rfl, .plus⟩
  · exact ⟨[], rfl, .none⟩

theorem splitFraction_spec (cs : List Char) :
    ∃ f, cs = f ++ (splitFraction cs).2 ∧ IsFraction f (splitFraction cs).1 := by
  unfold splitFraction
  split
  · next rest =>
    obtain ⟨w, hw, hds⟩ := splitDigits_spec rest
    exact ⟨'.' :: w, congrArg _ hw, .point hds⟩
  · exact ⟨[], rfl, .none⟩

theorem isPower_of_exponent (h : exponent? cs = some power) : IsPower cs power := by
  unfold exponent? at h
  split at h
  · cases h
    exact .none
  · next c rest =>
    split at h
    · next hc =>
      obtain ⟨s, hs, hsign⟩ := splitSign_spec rest
      obtain ⟨w, hw, hds⟩ := splitDigits_spec (splitSign rest).2
      dsimp only at h
      generalize splitSign rest = signed at hs hsign hw hds h
      split at h
      · next d ds hsplit =>
        rw [hsplit] at hw hds
        cases h
        rw [hs, hw, List.append_nil]
        exact .written (by simpa using hc) hsign hds (by simp)
      · cases h
    · cases h

theorem toRat_written (negative : Bool) (whole fraction : List ℕ) (power : ℤ) :
    (⟨negative, ofDigits 10 (whole ++ fraction), power - fraction.length⟩ : Decimal).toRat =
      written negative whole fraction power := by
  have hshift : (10 : ℚ) ^ (power - fraction.length) = 10 ^ power / 10 ^ fraction.length := by
    rw [zpow_sub₀ (by norm_num), zpow_natCast]
  unfold Decimal.toRat written
  rw [hshift, ofDigits_append]
  push_cast
  cases negative
  · simp only [Bool.false_eq_true, if_false]
    field_simp
  · simp only [if_true]
    field_simp

theorem written_pos {whole : List ℕ} (h : 0 < ofDigits 10 whole) (fraction : List ℕ) (power : ℤ) :
    0 < written false whole fraction power := by
  have hwhole : (0 : ℚ) < ofDigits 10 whole := by exact_mod_cast h
  simp only [written, Bool.false_eq_true, if_false, one_mul]
  positivity

theorem spells_of_number (hs : IsSign w negative) (h : number? negative cs = some (.number d)) :
    Spells (w ++ cs) d.toRat := by
  obtain ⟨digits, hdigits, hwhole⟩ := splitDigits_spec cs
  obtain ⟨f, hf, hfraction⟩ := splitFraction_spec (splitDigits cs).2
  unfold number? at h
  simp only [Option.bind_eq_bind, Option.bind_eq_some_iff] at h
  generalize splitFraction (splitDigits cs).2 = tail at hf hfraction h
  generalize splitDigits cs = head at hdigits hwhole hf h
  obtain ⟨power, hpower, h⟩ := h
  split at h
  · cases h
  · next hne =>
    split at h
    · cases h
      rw [toRat_written, hdigits, hf]
      exact .mk hs hwhole hfraction (isPower_of_exponent hpower) (by simpa using hne)
    · cases h

theorem number_of_read (h : read? cs = some (.number d)) :
    number? (splitSign cs).1 (splitSign cs).2 = some (.number d) := by
  have hpayload : ∀ negative signalling rest,
      payload? negative signalling rest ≠ some (.number d) := by
    intro negative signalling rest hp
    unfold payload? at hp
    split at hp <;> cases hp
  unfold read? at h
  dsimp only at h
  split at h
  · split at h <;> cases h
  · exact (hpayload _ _ _ h).elim
  · exact (hpayload _ _ _ h).elim
  · exact h

/-- A numeral that is read as a number writes it, blanks and underscores apart. -/
theorem spells_of_parse (h : parse? cs = some (.number d)) :
    Spells ((stripEnd (stripStart cs)).filter (· != '_')) d.toRat := by
  unfold parse? at h
  generalize (stripEnd (stripStart cs)).filter (· != '_') = clean at h ⊢
  obtain ⟨s, hs, hsign⟩ := splitSign_spec clean
  rw [hs]
  exact spells_of_number hsign (number_of_read h)

/-! ## What a numeral writes is one number -/

variable {s t f p : List Char} {ds : List ℕ} {x x' : ℚ}

/-- No digit goes on here. -/
def EndsDigits (cs : List Char) : Prop := ∀ c ∈ cs.head?, digitValue? c = none

/-- The last character is a digit or a point. -/
def EndsInDigit (cs : List Char) : Prop := ∃ c ∈ cs.getLast?, c = '.' ∨ digitValue? c ≠ none

theorem splitDigits_append (hw : IsDigits w ds) (ht : EndsDigits t) :
    splitDigits (w ++ t) = (ds, t) := by
  induction w generalizing ds with
  | nil =>
    obtain rfl : ds = [] := List.map_eq_nil_iff.mp hw.symm
    cases t with
    | nil => rfl
    | cons c t => simp [splitDigits, ht c rfl]
  | cons c w ih =>
    cases ds with
    | nil => cases hw
    | cons d ds =>
      obtain ⟨hd, hds⟩ := List.cons.inj hw
      simp [splitDigits, hd, ih hds]

theorem IsDigits.mem (hw : IsDigits w ds) : ∀ c ∈ w, digitValue? c ≠ none := by
  intro c hc
  have hmem : digitValue? c ∈ ds.map some := hw ▸ List.mem_map_of_mem hc
  obtain ⟨d, _, hd⟩ := List.mem_map.mp hmem
  simp [← hd]

theorem IsDigits.eq_nil_iff (hw : IsDigits w ds) : w = [] ↔ ds = [] := by
  have hlength : w.length = ds.length := by simpa using congrArg List.length hw
  rw [← List.length_eq_zero_iff, hlength, List.length_eq_zero_iff]

theorem EndsInDigit.behind (h : EndsInDigit t) (cs : List Char) : EndsInDigit (cs ++ t) := by
  obtain ⟨c, hc, hd⟩ := h
  exact ⟨c, List.mem_getLast?_append_of_mem_getLast? hc, hd⟩

theorem IsDigits.endsInDigit (hw : IsDigits w ds) (hne : w ≠ []) : EndsInDigit w :=
  ⟨w.getLast hne, List.getLast?_eq_some_getLast hne, Or.inr (hw.mem _ (List.getLast_mem hne))⟩

/-- A text that starts with a digit starts with no sign. -/
theorem IsDigits.unsigned (hw : IsDigits w ds) : ∀ c ∈ w.head?, c ∉ ['-', '+'] := by
  intro c hc hsign
  have hdigit := hw.mem c (List.mem_of_mem_head? hc)
  obtain rfl | rfl : c = '-' ∨ c = '+' := by simpa using hsign
  · exact hdigit (by decide)
  · exact hdigit (by decide)

theorem splitSign_append (hs : IsSign s negative) (ht : ∀ c ∈ t.head?, c ∉ ['-', '+']) :
    splitSign (s ++ t) = (negative, t) := by
  cases hs with
  | plus => rfl
  | minus => rfl
  | none =>
    cases t with
    | nil => rfl
    | cons c t =>
      have hc : c ≠ '-' ∧ c ≠ '+' := by simpa using ht c rfl
      unfold splitSign
      split
      · next h => exact absurd (List.cons.inj h).1 hc.1
      · next h => exact absurd (List.cons.inj h).1 hc.2
      · rfl

theorem IsPower.head (hp : IsPower p power) : ∀ c ∈ p.head?, c = 'e' ∨ c = 'E' := by
  cases hp with
  | none => simp
  | written he hs hw hne => simpa using he

theorem IsPower.endsDigits (hp : IsPower p power) : EndsDigits p := by
  intro c hc
  obtain rfl | rfl := hp.head c hc <;> decide

theorem IsFraction.endsDigits (hf : IsFraction f ds) (hp : IsPower p power) : EndsDigits (f ++ p) := by
  cases hf with
  | none => exact hp.endsDigits
  | point hw =>
    rintro c ⟨⟩
    decide

theorem splitFraction_append (hf : IsFraction f ds) (hp : IsPower p power) :
    splitFraction (f ++ p) = (ds, p) := by
  cases hf with
  | none =>
    cases hp with
    | none => rfl
    | written he hs hw hne => obtain rfl | rfl := he <;> rfl
  | point hw => exact splitDigits_append hw hp.endsDigits

theorem exponent?_eq (hp : IsPower cs power) : exponent? cs = some power := by
  cases hp with
  | none => rfl
  | @written e s w ds negative he hs hw hne =>
    have hsign : splitSign (s ++ w) = (negative, w) :=
      splitSign_append hs hw.unsigned
    have hdigits : splitDigits w = (ds, []) := by
      simpa [EndsDigits] using splitDigits_append hw (t := [])
    obtain ⟨d, ds, rfl⟩ := List.exists_cons_of_ne_nil hne
    have hmark : (e == 'e' || e == 'E') = true := by simpa using he
    simp [exponent?, hmark, hsign, hdigits]

/-- The parts of a numeral are those that reading splits off. -/
theorem Spells.eq_written (h : Spells cs x) :
    ∃ power, exponent? (splitFraction (splitDigits (splitSign cs).2).2).2 = some power ∧
      x = written (splitSign cs).1 (splitDigits (splitSign cs).2).1
        (splitFraction (splitDigits (splitSign cs).2).2).1 power := by
  cases h with
  | @mk s w f p negative whole fraction power hs hw hf hp hne =>
    have hunsigned : ∀ c ∈ (w ++ (f ++ p)).head?, c ∉ ['-', '+'] := by
      cases w with
      | cons c w => exact hw.unsigned
      | nil =>
        -- without whole digits there is a point
        cases hf with
        | point hf => simp
        | none => exact absurd (List.map_eq_nil_iff.mp hw.symm) (by simpa using hne)
    rw [splitSign_append hs hunsigned, splitDigits_append hw (hf.endsDigits hp),
      splitFraction_append hf hp]
    exact ⟨power, exponent?_eq hp, rfl⟩

theorem Spells.unique (h : Spells cs x) (h' : Spells cs x') : x = x' := by
  obtain ⟨power, hpower, rfl⟩ := h.eq_written
  obtain ⟨power', hpower', rfl⟩ := h'.eq_written
  rw [Option.some.inj (hpower.symm.trans hpower')]

theorem Spells.endsInDigit (h : Spells cs x) : EndsInDigit cs := by
  cases h with
  | mk hs hw hf hp hne =>
    refine EndsInDigit.behind ?_ _
    cases hp with
    | written he hs' hw' hne' =>
      exact (((hw'.endsInDigit (mt hw'.eq_nil_iff.mp hne')).behind _).behind _).behind _
    | none =>
      rw [List.append_nil]
      cases hf with
      | none =>
        rw [List.append_nil] at hne ⊢
        exact hw.endsInDigit (mt hw.eq_nil_iff.mp hne)
      | @point w' _ hw' =>
        refine EndsInDigit.behind ?_ _
        cases w' with
        | nil => exact ⟨'.', rfl, Or.inl rfl⟩
        | cons c w' => exact (hw'.endsInDigit (by simp)).behind ['.']

end Numeral

end CeilingGate
