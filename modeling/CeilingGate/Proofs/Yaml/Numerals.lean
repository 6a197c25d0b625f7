import CeilingGate.Proofs.Decimal.Numeral
import CeilingGate.Proofs.Yaml.Labels

/-! Numerals that stand plain: what they are read as, and what the texts of the numbers they are read as
write. -/
namespace CeilingGate.Yaml

open Scalar CeilingGate.Text

variable {t cs ds fs : List Char} {v : Value} {c : Char} {n : ℚ}

/-- Digits, at least one. -/
def IsRow (cs : List Char) : Prop := cs ≠ [] ∧ ∀ c ∈ cs, c.isDigit = true

instance (cs : List Char) : Decidable (IsRow cs) :=
  decidable_of_iff (cs ≠ [] ∧ cs.all Char.isDigit = true) (by simp [IsRow])

/-- A row of digits, or two with a point between them. -/
inductive IsNumeral : List Char → Prop
  | whole {ds : List Char} (h : IsRow ds) : IsNumeral ds
  | point {ds fs : List Char} (h : IsRow ds) (hf : IsRow fs) : IsNumeral (ds ++ '.' :: fs)

/-- A zero, and behind it digits below eight, at least one. -/
def IsOctal (t : List Char) : Prop :=
  ∃ c rest, t = '0' :: c :: rest ∧ ∀ d ∈ c :: rest, '0' ≤ d ∧ d ≤ '7'

/-- The number that digits write in base eight. -/
def octal (cs : List Char) : Nat := ofDigits 8 (cs.map fun c => c.toNat - 48)

/-- What a numeral that stands plain is read as: a row of digits as an integer, in base eight if a zero
stands in front, or as its own text if some digit does not allow that; with a point, as a double. -/
inductive NumeralReading (t : List Char) : Value → Prop
  | text (hp : '.' ∉ t) (ho : ¬ IsOctal t) : NumeralReading t (.text (String.ofList t))
  | decimal {n : Int} (hp : '.' ∉ t) (ho : ¬ IsOctal t)
      (hn : Integer.text? n = some (String.ofList t)) : NumeralReading t (.int n)
  | octal (hp : '.' ∉ t) (ho : IsOctal t) : NumeralReading t (.int (octal t))
  | float {x : Binary64} (hp : '.' ∈ t) (hx : Binary64.parse? t = some x) :
      NumeralReading t (.float x)

theorem IsRow.not_mem (h : IsRow cs) (hc : c.isDigit = false) : c ∉ cs := by
  intro hmem
  rw [h.2 c hmem] at hc
  cases hc

theorem IsRow.isLabel (h : IsRow cs) : IsLabel cs where
  ne_nil := h.1
  chars := by
    rw [List.all_eq_true]
    intro c hc
    simp [isLabelChar, h.2 c hc]
  head := fun he => h.not_mem (by decide) (List.mem_of_mem_head? he)
  last := fun he => h.not_mem (by decide) (List.mem_of_getLast? he)

/-! ## Rows of digits -/

theorem isDecimalInt_of_octal (h : IsOctal t) : Form.isDecimalInt t = false := by
  obtain ⟨c, rest, rfl, _⟩ := h
  rfl

theorem isInt_of_octal (h : IsOctal t) : Form.isInt t = true := by
  obtain ⟨c, rest, rfl, hdigits⟩ := h
  have hb : c ≠ 'b' := by
    rintro rfl
    exact absurd (hdigits 'b' List.mem_cons_self).2 (by decide)
  have hx : c ≠ 'x' := by
    rintro rfl
    exact absurd (hdigits 'x' List.mem_cons_self).2 (by decide)
  have hall : (c :: rest).all (fun d => ('0' ≤ d && d ≤ '7') || d == '_') = true := by
    rw [List.all_eq_true]
    intro d hd
    simp [hdigits d hd]
  unfold Form.isInt
  dsimp only
  have hunsigned : Form.unsigned ('0' :: c :: rest) = '0' :: c :: rest := rfl
  rw [hunsigned]
  split
  · next he => exact absurd (List.cons.inj (List.cons.inj he).2).1 hb
  · next he => exact absurd (List.cons.inj (List.cons.inj he).2).1 hx
  · next he =>
    cases he
    exact hall
  · next hn => exact (hn c rest rfl).elim

/-- A row that is an integer but no decimal one is octal. -/
theorem isOctal_of_isInt (h : IsRow t) (hi : Form.isInt t = true) (hd : Form.isDecimalInt t = false) :
    IsOctal t := by
  have hlabel := h.isLabel
  unfold Form.isInt at hi
  dsimp only at hi
  rw [unsigned_eq_self hlabel] at hi
  split at hi
  · exact (h.not_mem (c := 'b') (by decide) (by simp)).elim
  · exact (h.not_mem (c := 'x') (by decide) (by simp)).elim
  · next c rest _ _ =>
    refine ⟨c, rest, rfl, fun d hd => ?_⟩
    have hne : d ≠ '_' := by
      rintro rfl
      exact h.not_mem (by decide) (List.mem_cons_of_mem _ hd)
    simpa [hne] using List.all_eq_true.mp hi d hd
  · rw [splitColons_eq_singleton (hlabel.not_mem (by decide))] at hi
    exact absurd (hd.symm.trans hi) (by decide)

theorem digitIn?_octal (h : '0' ≤ c ∧ c ≤ '7') : digitIn? 8 c = some (c.toNat - 48) := by
  have hbounds : 48 ≤ c.toNat ∧ c.toNat ≤ 55 := by
    simpa [Char.le_def, UInt32.le_iff_toNat_le] using h
  have hall : ∀ n ∈ List.range' 48 8, digitIn? 8 (Char.ofNat n) = some (n - 48) := by decide
  simpa using hall c.toNat (List.mem_range'_1.mpr (by omega))

theorem readDigits?_octal (h : ∀ c ∈ cs, '0' ≤ c ∧ c ≤ '7') (afterPart : Bool) :
    Integer.readDigits? 8 afterPart cs = some (cs.map fun c => c.toNat - 48) := by
  induction cs generalizing afterPart with
  | nil => rfl
  | cons c rest ih =>
    have hc := h c (by simp)
    have hbar : c ≠ '_' := by
      rintro rfl
      exact absurd hc.2 (by decide)
    rw [Integer.readDigits?.eq_3 _ _ _ _ (fun _ _ he _ => hbar he)]
    simp [digitIn?_octal hc, ih fun c hc => h c (by simp [hc])]

theorem splitSign_unsigned (hminus : '-' ∉ t) (hplus : '+' ∉ t) :
    Integer.splitSign t = (false, t) := by
  unfold Integer.splitSign
  split
  · exact (hminus (by simp)).elim
  · exact (hplus (by simp)).elim
  · rfl

theorem parse?_octal (h : IsRow t) (ho : IsOctal t) : Integer.parse? 8 t = some (octal t : Int) := by
  have hdigits : ∀ c ∈ t, '0' ≤ c ∧ c ≤ '7' := by
    obtain ⟨c, rest, rfl, hrest⟩ := ho
    exact List.forall_mem_cons.mpr ⟨by decide, hrest⟩
  have hmark : Integer.dropBaseMark 8 t = (t, false) := by
    obtain ⟨c, rest, rfl, _⟩ := ho
    have hsmall : c ≠ 'o' := ne_of_mem_of_not_mem (by simp) (h.not_mem (by decide))
    have hcapital : c ≠ 'O' := ne_of_mem_of_not_mem (by simp) (h.not_mem (by decide))
    simp [Integer.dropBaseMark, Integer.baseMark?, hsmall, hcapital]
  unfold Integer.parse?
  rw [strip_of_digits h.2, splitSign_unsigned (h.not_mem (by decide)) (h.not_mem (by decide))]
  dsimp only
  rw [hmark]
  dsimp only
  rw [readDigits?_octal hdigits]
  obtain ⟨c, rest, rfl, _⟩ := ho
  rfl

theorem unsignedInt_octal (h : IsRow t) (ho : IsOctal t) : unsignedInt t = .ok (octal t : Int) := by
  have hparse := parse?_octal h ho
  obtain ⟨c, rest, rfl, _⟩ := ho
  have hb : c ≠ 'b' := ne_of_mem_of_not_mem (by simp) (h.not_mem (by decide))
  have hx : c ≠ 'x' := ne_of_mem_of_not_mem (by simp) (h.not_mem (by decide))
  unfold unsignedInt
  split
  · next he => cases he
  · next he => cases he
  · next he => exact absurd (List.cons.inj (List.cons.inj he).2).1 hb
  · next he => exact absurd (List.cons.inj (List.cons.inj he).2).1 hx
  · rw [hparse]
    rfl
  · next hn => exact (hn _ rfl).elim

/-- An octal row is read in base eight, whatever its length. -/
theorem readInt_octal (h : IsRow t) (ho : IsOctal t) : readInt t = .ok (.int (octal t)) := by
  unfold readInt
  rw [splitSign?_label h.isLabel]
  dsimp only
  rw [unsignedInt_octal h ho]
  rfl

/-- Neither a truth value nor the word for nothing has a digit in it. -/
theorem IsRow.not_word (h : IsRow t) : Form.isBool t = false ∧ Form.isNull t = false := by
  obtain ⟨c, hc⟩ := List.exists_mem_of_ne_nil t h.1
  have hdigit := h.2 c hc
  constructor
  · by_contra hb
    rw [(isBool_letters (by simpa using hb) c hc).1] at hdigit
    cases hdigit
  · by_contra hn
    have hnull : Form.isNull t = true := by simpa using hn
    have hword := of_contains (p := fun s => s.toList.all fun c => !c.isDigit) hnull (by decide)
    rw [String.toList_ofList, List.all_eq_true] at hword
    simpa [hdigit] using hword c hc

theorem isPlainValue_octal (h : IsRow t) (ho : IsOctal t) (hv : IsPlainValue t v) :
    v = .int (octal t) := by
  obtain ⟨read, hr, hv⟩ := hv
  rw [implicitTag_label h.isLabel, h.not_word.1, isInt_of_octal ho] at hr
  cases (show reader? (standard "int") = some readInt from rfl).symm.trans hr
  rw [readInt_octal h ho] at hv
  exact (Except.ok.inj hv).symm

theorem row_reading (h : IsRow t) (hv : IsPlainValue t v) : NumeralReading t v := by
  have hpoint : '.' ∉ t := h.not_mem (by decide)
  cases label_reading h.isLabel hv with
  | text hb hn hi =>
    refine .text hpoint fun ho => ?_
    rw [isInt_of_octal ho] at hi
    cases hi
  | date hb hn hi hd =>
    have hdash : '-' ∈ t := by
      rw [← String.toList_ofList (l := t), ← hd]
      simp [Date.text]
    exact (h.not_mem (by decide) hdash).elim
  | bool hb =>
    rw [h.not_word.1] at hb
    cases hb
  | null hn =>
    rw [h.not_word.2] at hn
    cases hn
  | decimal hb hn hi hd hn' =>
    refine .decimal hpoint (fun ho => ?_) hn'
    rw [isDecimalInt_of_octal ho] at hd
    cases hd
  | based hi hd =>
    have ho := isOctal_of_isInt h hi hd
    rw [isPlainValue_octal h ho hv]
    exact .octal hpoint ho

/-! ## Two rows and a point -/

theorem IsNumeral.chars (h : IsNumeral t) : ∀ c ∈ t, c.isDigit = true ∨ c = '.' := by
  cases h with
  | whole h => exact fun c hc => Or.inl (h.2 c hc)
  | point h hf =>
    intro c hc
    rcases List.mem_append.mp hc with hc | hc
    · exact Or.inl (h.2 c hc)
    · rcases List.mem_cons.mp hc with rfl | hc
      · exact Or.inr rfl
      · exact Or.inl (hf.2 c hc)

theorem IsNumeral.not_mem (h : IsNumeral t) (hc : c.isDigit = false) (hp : c ≠ '.') : c ∉ t := by
  intro hmem
  obtain hd | rfl := h.chars c hmem
  · rw [hd] at hc
    cases hc
  · exact hp rfl

/-- A numeral starts with a digit. -/
theorem IsNumeral.exists_cons (h : IsNumeral t) : ∃ c rest, t = c :: rest ∧ c.isDigit = true := by
  cases h with
  | whole h =>
    obtain ⟨c, rest, rfl⟩ := List.exists_cons_of_ne_nil h.1
    exact ⟨c, rest, rfl, h.2 c (by simp)⟩
  | point h hf =>
    obtain ⟨c, rest, rfl⟩ := List.exists_cons_of_ne_nil h.1
    exact ⟨c, rest ++ _, rfl, h.2 c (by simp)⟩

theorem unsigned_of_not_mem (hminus : '-' ∉ t) (hplus : '+' ∉ t) : Form.unsigned t = t := by
  unfold Form.unsigned
  split
  · exact (hminus (by simp)).elim
  · exact (hplus (by simp)).elim
  · rfl

theorem isFloat_point (h : IsRow ds) (hf : IsRow fs) : Form.isFloat (ds ++ '.' :: fs) = true := by
  have hn := IsNumeral.point h hf
  have hunsigned : Form.unsigned (ds ++ '.' :: fs) = ds ++ '.' :: fs :=
    unsigned_of_not_mem (hn.not_mem (by decide) (by decide)) (hn.not_mem (by decide) (by decide))
  have hdrop : fs.dropWhile Form.isDigitOrBar = [] := by
    rw [List.dropWhile_eq_nil_iff]
    intro d hd
    simp [Form.isDigitOrBar, hf.2 d hd]
  obtain ⟨c, rest, rfl⟩ := List.exists_cons_of_ne_nil h.1
  have hrest : rest.all Form.isDigitOrBar = true := by
    rw [List.all_eq_true]
    intro d hd
    simp [Form.isDigitOrBar, h.2 d (by simp [hd])]
  unfold Form.isFloat
  dsimp only
  rw [hunsigned, span_stop (h.not_mem (by decide))]
  dsimp only
  rw [splitColons_eq_singleton (h.not_mem (by decide))]
  simp [Form.isNumberStart, Form.isFraction, hdrop, Form.isPower, h.2 c (by simp), hrest]

theorem smallAscii_of_isDigit (h : c.isDigit = true) : Numeral.smallAscii c = c := by
  obtain ⟨hlow, hhigh⟩ := isDigit_bounds h
  have hall : ∀ n ∈ List.range' 48 10, Numeral.smallAscii (Char.ofNat n) = Char.ofNat n := by decide
  simpa using hall c.toNat (List.mem_range'_1.mpr (by omega))

theorem IsNumeral.small (h : IsNumeral t) : small t = t := by
  have hid : ∀ c ∈ t, Numeral.smallAscii c = id c := by
    intro c hc
    obtain hd | rfl := h.chars c hc
    · exact smallAscii_of_isDigit hd
    · rfl
  exact (List.map_congr_left hid).trans (List.map_id t)

theorem IsNumeral.splitSign? (h : IsNumeral t) : splitSign? t = some (false, t) := by
  have hbar : t.filter (· != '_') = t := by
    refine List.filter_eq_self.mpr fun c hc => ?_
    simpa using ne_of_mem_of_not_mem hc (h.not_mem (by decide) (by decide))
  obtain ⟨c, rest, rfl, _⟩ := h.exists_cons
  unfold Scalar.splitSign?
  rw [hbar]
  dsimp only
  rw [splitSign_unsigned (h.not_mem (by decide) (by decide)) (h.not_mem (by decide) (by decide))]

/-- A numeral is none of the words for what is no finite number. -/
theorem IsNumeral.unsignedFloat (h : IsNumeral t) :
    unsignedFloat t = orBadValue (Binary64.parse? t) := by
  obtain ⟨c, rest, hcons, hdigit⟩ := h.exists_cons
  have hne : ∀ word : String, word.toList.head? = some '.' → (String.ofList t == word) = false := by
    intro word hword
    rw [beq_eq_false_iff_ne]
    rintro rfl
    rw [String.toList_ofList, hcons] at hword
    obtain rfl : c = '.' := by simpa using hword
    exact absurd hdigit (by decide)
  have hcolon : t.contains ':' = false := by
    rw [← Bool.not_eq_true, List.contains_iff_mem]
    exact h.not_mem (by decide) (by decide)
  unfold Scalar.unsignedFloat
  dsimp only
  rw [hne ".inf" (by decide), hne ".nan" (by decide), hcolon]
  rfl

theorem readFloat_numeral (h : IsNumeral t) :
    readFloat t = (orBadValue (Binary64.parse? t)).map .float := by
  unfold readFloat
  rw [h.small, h.splitSign?]
  dsimp only
  rw [h.unsignedFloat]
  rfl

theorem implicitTag_point (h : IsRow ds) (hf : IsRow fs) :
    implicitTag (ds ++ '.' :: fs) = standard "float" := by
  have hn := IsNumeral.point h hf
  obtain ⟨c, rest, hcons, hdigit⟩ := hn.exists_cons
  have hbool : Form.isBool (ds ++ '.' :: fs) = false := by
    by_contra hb
    rw [(isBool_letters (by simpa using hb) c (by simp [hcons])).1] at hdigit
    cases hdigit
  rw [implicitTag_eq_formTag (hn.not_mem (by decide) (by decide)), formTag, hbool, isFloat_point h hf]
  rfl

/-- A numeral that stands plain and can be read. -/
theorem numeral_reading (h : IsNumeral t) (hv : IsPlainValue t v) : NumeralReading t v := by
  cases h with
  | whole h => exact row_reading h hv
  | @point ds fs h hf =>
    obtain ⟨read, hr, hv⟩ := hv
    rw [implicitTag_point h hf] at hr
    cases (show reader? (standard "float") = some readFloat from rfl).symm.trans hr
    rw [readFloat_numeral (.point h hf)] at hv
    obtain ⟨x, hx, rfl⟩ := map_eq_ok.mp hv
    refine .float (by simp) ?_
    cases hp : Binary64.parse? (ds ++ '.' :: fs) with
    | none =>
      rw [hp] at hx
      cases hx
    | some y =>
      rw [hp] at hx
      cases hx
      rfl

end CeilingGate.Yaml
