import CeilingGate.Proofs.Yaml.Digits
import CeilingGate.Proofs.Yaml.Scalar
import CeilingGate.Proofs.Value.Keys
import CeilingGate.Value.Text
import Mathlib.Data.List.TakeDrop
import Mathlib.Data.List.TakeWhile
import Std.Data.String.ToInt

/-! Labels that stand plain as keys: what they are read as, and which of them are still themselves when
their keys are turned back into texts. -/
namespace CeilingGate.Yaml

open Scalar

variable {c : Char} {k : List Char} {v w : Value} {d : Decimal}

def isLabelChar (c : Char) : Bool := c.isLower || c.isDigit || c == '-'

/-- Small letters, digits and dashes, with no dash at either end. -/
structure IsLabel (k : List Char) : Prop where
  ne_nil : k ≠ []
  chars : k.all isLabelChar = true
  head : k.head? ≠ some '-'
  last : k.getLast? ≠ some '-'

theorem IsLabel.not_mem (h : IsLabel k) (hc : isLabelChar c = false) : c ∉ k := by
  intro hmem
  rw [List.all_eq_true.mp h.chars c hmem] at hc
  cases hc

/-! ## The tag of a label -/

theorem implicitTag_eq_formTag (h : '\n' ∉ k) : implicitTag k = formTag k := by
  unfold implicitTag
  split
  · next hk => exact (h (List.mem_reverse.mp (by simp [hk]))).elim
  · next hk => exact (h (List.mem_reverse.mp (by simp [hk]))).elim
  · rfl

theorem unsigned_eq_self (h : IsLabel k) : Form.unsigned k = k := by
  unfold Form.unsigned
  split
  · exact (h.head rfl).elim
  · exact (h.not_mem (c := '+') (by decide) List.mem_cons_self).elim
  · rfl

theorem span_stop {xs : List Char} (h : c ∉ xs) (ys : List Char) :
    (xs ++ c :: ys).span (· != c) = (xs, c :: ys) := by
  have hne : ∀ x ∈ xs, (x != c) = true := by
    intro x hx
    simpa using ne_of_mem_of_not_mem hx h
  rw [List.span_eq_takeWhile_dropWhile, List.takeWhile_append_of_pos hne,
    List.dropWhile_append_of_pos hne]
  simp

theorem isFloat_eq_false (h : '.' ∉ Form.unsigned k) : Form.isFloat k = false := by
  have hspan : (Form.unsigned k).span (· != '.') = (Form.unsigned k, []) := by
    rw [List.span_eq_takeWhile_dropWhile, List.takeWhile_eq_self_iff.mpr, List.dropWhile_eq_nil_iff.mpr]
    · intro c hc
      simpa using ne_of_mem_of_not_mem hc h
    · intro c hc
      simpa using ne_of_mem_of_not_mem hc h
  unfold Form.isFloat
  dsimp only
  rw [hspan]

/-- A label is a truth value, an integer, nothing, a date or a text. -/
theorem implicitTag_label (h : IsLabel k) :
    implicitTag k =
      if Form.isBool k then standard "bool"
      else if Form.isInt k then standard "int"
      else if Form.isNull k then standard "null"
      else if MomentText.isImplicit k then standard "timestamp"
      else standard "str" := by
  have hfloat : Form.isFloat k = false :=
    isFloat_eq_false (by rw [unsigned_eq_self h]; exact h.not_mem (by decide))
  have hmerge : (k == ['<', '<']) = false := by
    rw [beq_eq_false_iff_ne]
    rintro rfl
    exact h.not_mem (c := '<') (by decide) (by simp)
  have hvalue : (k == ['=']) = false := by
    rw [beq_eq_false_iff_ne]
    rintro rfl
    exact h.not_mem (c := '=') (by decide) (by simp)
  have hyaml : [['!'], ['&'], ['*']].contains k = false := by
    rw [← Bool.not_eq_true, List.contains_iff_mem]
    intro hk
    simp only [List.mem_cons, List.not_mem_nil, or_false] at hk
    rcases hk with rfl | rfl | rfl
    · exact h.not_mem (c := '!') (by decide) (by simp)
    · exact h.not_mem (c := '&') (by decide) (by simp)
    · exact h.not_mem (c := '*') (by decide) (by simp)
  rw [implicitTag_eq_formTag (h.not_mem (by decide))]
  unfold formTag
  rw [hfloat, hmerge, hvalue, hyaml]
  simp only [Bool.false_eq_true, if_false]

/-! ## Integers -/

theorem splitColons_eq_singleton (h : ':' ∉ k) : Form.splitColons k = [k] := by
  induction k with
  | nil => rfl
  | cons c rest ih =>
    have hrest := ih fun hc => h (List.mem_cons_of_mem _ hc)
    unfold Form.splitColons
    split
    · next he => cases he
    · next he =>
      cases he
      exact (h List.mem_cons_self).elim
    · next he =>
      cases he
      rw [hrest]

/-- An integer without a sign and without colons is decimal, or has a zero in front. -/
theorem isInt_cases (h : IsLabel k) (hi : Form.isInt k = true) :
    Form.isDecimalInt k = true ∨
      ∃ c rest, k = '0' :: c :: rest ∧ c ≠ '-' ∧ '-' ∉ rest := by
  unfold Form.isInt at hi
  dsimp only at hi
  rw [unsigned_eq_self h] at hi
  split at hi
  · next rest =>
    refine Or.inr ⟨_, rest, rfl, by decide, fun hdash => ?_⟩
    have hall := List.all_eq_true.mp (Bool.and_eq_true_iff.mp hi).2 _ hdash
    exact absurd hall (by decide)
  · next rest =>
    refine Or.inr ⟨_, rest, rfl, by decide, fun hdash => ?_⟩
    have hall := List.all_eq_true.mp (Bool.and_eq_true_iff.mp hi).2 _ hdash
    exact absurd hall (by decide)
  · next c rest _ _ =>
    have hall := List.all_eq_true.mp hi
    refine Or.inr ⟨c, rest, rfl, ?_, fun hdash => ?_⟩
    · rintro rfl
      exact absurd (hall '-' List.mem_cons_self) (by decide)
    · exact absurd (hall '-' (List.mem_cons_of_mem _ hdash)) (by decide)
  · rw [splitColons_eq_singleton (h.not_mem (by decide))] at hi
    exact Or.inl hi

theorem digits_of_isDecimalInt (h : IsLabel k) (hi : Form.isDecimalInt k = true) :
    (∀ c ∈ k, c.isDigit = true) ∧ (k = ['0'] ∨ k.head? ≠ some '0') := by
  unfold Form.isDecimalInt at hi
  split at hi
  · simp
  · next c rest _ =>
    simp only [Bool.and_eq_true, decide_eq_true_eq, List.all_eq_true] at hi
    obtain ⟨⟨hlow, hhigh⟩, hrest⟩ := hi
    have hzero : c ≠ '0' := by
      rintro rfl
      exact absurd hlow (by decide)
    refine ⟨fun d hd => ?_, Or.inr (by simpa using hzero)⟩
    rcases List.mem_cons.mp hd with rfl | hd
    · simp only [Char.isDigit, Bool.and_eq_true, decide_eq_true_eq]
      exact ⟨UInt32.le_trans (by decide) hlow, hhigh⟩
    · have hbar : d ≠ '_' := ne_of_mem_of_not_mem (List.mem_cons_of_mem c hd) (h.not_mem (by decide))
      simpa [Form.isDigitOrBar, hbar] using hrest d hd
  · cases hi

theorem dash_not_mem_of_isInt (h : IsLabel k) (hi : Form.isInt k = true) : '-' ∉ k := by
  obtain hdecimal | ⟨c, rest, rfl, hc, hrest⟩ := isInt_cases h hi
  · intro hdash
    exact absurd ((digits_of_isDecimalInt h hdecimal).1 '-' hdash) (by decide)
  · simp [hrest, Ne.symm hc]

theorem splitSign?_label (h : IsLabel k) : splitSign? k = some (false, k) := by
  have hbar : k.filter (· != '_') = k :=
    List.filter_eq_self.mpr fun c hc => by simpa using ne_of_mem_of_not_mem hc (h.not_mem (by decide))
  have hsign : Integer.splitSign k = (false, k) := by
    unfold Integer.splitSign
    split
    · exact (h.head rfl).elim
    · exact (h.not_mem (c := '+') (by decide) List.mem_cons_self).elim
    · rfl
  unfold splitSign?
  rw [hbar]
  split
  · exact (h.ne_nil rfl).elim
  · rw [hsign]

theorem readInt_eq_ok (hv : readInt k = .ok v) : ∃ n, v = .int n := by
  unfold readInt at hv
  split at hv
  · cases hv
  · obtain ⟨n, _, rfl⟩ := map_eq_ok.mp hv
    exact ⟨_, rfl⟩

/-- A decimal label is read as an integer that is written as the label. -/
theorem readInt_decimal (h : IsLabel k) (hi : Form.isDecimalInt k = true) (hv : readInt k = .ok v) :
    ∃ n : Int, v = .int n ∧ Integer.text? n = some (String.ofList k) := by
  obtain ⟨hdigits, hhead⟩ := digits_of_isDecimalInt h hi
  unfold readInt at hv
  rw [splitSign?_label h] at hv
  obtain ⟨n, hn, rfl⟩ := map_eq_ok.mp hv
  refine ⟨n, rfl, ?_⟩
  obtain rfl | hhead := hhead
  · cases hn
    decide +kernel
  · have hparse : unsignedInt k = orBadValue (Integer.parse? 10 k) := by
      have hcolon : k.contains ':' = false := by
        rw [← Bool.not_eq_true, List.contains_iff_mem]
        exact h.not_mem (by decide)
      unfold unsignedInt
      split
      · exact (h.ne_nil rfl).elim
      · exact (hhead rfl).elim
      · exact (hhead rfl).elim
      · exact (hhead rfl).elim
      · exact (hhead rfl).elim
      · rw [hcolon]
        rfl
    rw [hparse, parse?_of_digits h.ne_nil hdigits] at hn
    split at hn
    · cases hn
    · next hl =>
      cases hn
      rw [text?_number h.ne_nil hdigits (by omega)]
      have hlist : (toString (number k : Int)).toList = k :=
        (toList_toString_nat (number k)).trans (toDigits_number h.ne_nil hdigits hhead)
      rw [← String.ofList_toList (s := toString (number k : Int)), hlist]

/-! ## What a label is read as -/

theorem of_contains {s : String} {words : List String} {p : String → Bool}
    (h : words.contains s = true) (hp : words.all p = true) : p s = true :=
  List.all_eq_true.mp hp s (List.contains_iff_mem.mp h)

/-- Truth values are words without digits and dashes. -/
theorem isBool_letters (h : Form.isBool k = true) : ∀ c ∈ k, c.isDigit = false ∧ c ≠ '-' := by
  simpa using of_contains (p := fun s => s.toList.all fun c => !c.isDigit && c != '-') h (by decide)

theorem isInt_of_isNull (h : Form.isNull k = true) : Form.isInt k = false := by
  simpa using of_contains (p := fun s => !Form.isInt s.toList) h (by decide)

/-- What a plain scalar is read as. -/
def IsPlainValue (k : List Char) (v : Value) : Prop :=
  ∃ read, reader? (implicitTag k) = some read ∧ read k = .ok v

/-- What a label that stands plain may be read as. -/
inductive LabelReading (k : List Char) : Value → Prop
  | text (hb : Form.isBool k = false) (hn : Form.isNull k = false) (hi : Form.isInt k = false) :
      LabelReading k (.text (String.ofList k))
  | date {d : Date} (hb : Form.isBool k = false) (hn : Form.isNull k = false)
      (hi : Form.isInt k = false) (h : d.text = String.ofList k) : LabelReading k (.date d)
  | bool {b : Bool} (h : Form.isBool k = true) : LabelReading k (.bool b)
  | null (h : Form.isNull k = true) : LabelReading k .null
  | decimal {n : Int} (hb : Form.isBool k = false) (hn : Form.isNull k = false)
      (hi : Form.isInt k = true) (hd : Form.isDecimalInt k = true)
      (h : Integer.text? n = some (String.ofList k)) : LabelReading k (.int n)
  | based {n : Int} (hi : Form.isInt k = true) (hd : Form.isDecimalInt k = false) :
      LabelReading k (.int n)

theorem label_reading (h : IsLabel k) (hv : IsPlainValue k v) : LabelReading k v := by
  obtain ⟨read, hr, hv⟩ := hv
  rw [implicitTag_label h] at hr
  -- The cases come in the order of the tests, since each presumes that those before it failed.
  split at hr
  · next hb =>
    cases (show reader? (standard "bool") = some readBool from rfl).symm.trans hr
    unfold readBool at hv
    dsimp only at hv
    split at hv
    · cases hv
      exact .bool hb
    · split at hv <;> cases hv
      exact .bool hb
  · next hb =>
    have hb : Form.isBool k = false := by simpa using hb
    split at hr
    · next hi =>
      cases (show reader? (standard "int") = some readInt from rfl).symm.trans hr
      have hn : Form.isNull k = false := by
        cases hn : Form.isNull k with
        | false => rfl
        | true => rw [isInt_of_isNull hn] at hi; cases hi
      cases hd : Form.isDecimalInt k with
      | true =>
        obtain ⟨n, rfl, hn'⟩ := readInt_decimal h hd hv
        exact .decimal hb hn hi hd hn'
      | false =>
        obtain ⟨n, rfl⟩ := readInt_eq_ok hv
        exact .based hi hd
    · next hi =>
      have hi : Form.isInt k = false := by simpa using hi
      split at hr
      · next hn =>
        cases (show reader? (standard "null") = some _ from rfl).symm.trans hr
        cases hv
        exact .null hn
      · next hn =>
        have hn : Form.isNull k = false := by simpa using hn
        split at hr
        · next hm =>
          cases (show reader? (standard "timestamp") = some readTimestamp from rfl).symm.trans hr
          have hlast : k.getLast? ≠ some '\n' := fun he =>
            h.not_mem (by decide) (List.mem_of_getLast? he)
          obtain ⟨d, rfl, hd⟩ := date_of_isImplicit hm (h.not_mem (by decide)) hlast hv
          exact .date hb hn hi hd
        · cases (show reader? (standard "str") = some _ from rfl).symm.trans hr
          cases hv
          exact .text hb hn hi

theorem LabelReading.sameKey_self (h : LabelReading k v) : Value.sameKey v v = true := by
  cases h with
  | text => exact Value.sameKey_text_iff.mpr rfl
  | date => simp [Value.sameKey, Value.sameScalar, Value.toNumeral?]
  | null => rfl
  | bool => exact Value.eqv_self _
  | decimal => exact Value.eqv_self _
  | based => exact Value.eqv_self _

/-! ## What the key of a label is turned back into -/

/-- A label that is read as `v` is still itself where `w` stands for its key: it is no truth value, not
nothing, and if it is a number, then a decimal one whose key is as it was read. -/
structure Keeps (k : List Char) (v w : Value) : Prop where
  bool : Form.isBool k = false
  null : Form.isNull k = false
  int : Form.isInt k = true → Form.isDecimalInt k = true ∧ w = v

/-- A character that no label has, or none but those with dashes. -/
def IsMark (c : Char) : Prop := c = '.' ∨ c = '+' ∨ c = '-'

theorem IsLabel.not_mem_of_isMark (h : IsLabel k) (hdash : '-' ∉ k) (hc : IsMark c) : c ∉ k := by
  rcases hc with rfl | rfl | rfl
  · exact h.not_mem (by decide)
  · exact h.not_mem (by decide)
  · exact hdash

/-- The texts of finite doubles have a point or the sign of a power. -/
theorem exists_mark_textOfDecimal (n : Nat) (e : Int) :
    ∃ c ∈ (Binary64.textOfDecimal n e).toList, IsMark c := by
  unfold Binary64.textOfDecimal
  dsimp only
  split
  · split
    · exact ⟨'.', by simp, Or.inl rfl⟩
    · split
      · exact ⟨'.', by simp, Or.inl rfl⟩
      · exact ⟨'.', by simp, Or.inl rfl⟩
  · generalize hp : _ - (1 : Int) = power
    by_cases hpower : power < 0
    · exact ⟨'-', by simp [hpower], Or.inr (Or.inr rfl)⟩
    · exact ⟨'+', by simp [hpower], Or.inr (Or.inl rfl)⟩

theorem exists_mark_text (negative : Bool) (m : Nat) (e : Int) :
    ∃ c ∈ (Binary64.text (.finite negative m e)).toList, IsMark c := by
  unfold Binary64.text
  dsimp only
  rw [String.toList_append]
  by_cases hm : m = 0
  · exact ⟨'.', by simp [hm], Or.inl rfl⟩
  · obtain ⟨c, hc, hmark⟩ := exists_mark_textOfDecimal (Binary64.shortest m e).1 (Binary64.shortest m e).2
    refine ⟨c, List.mem_append_right _ ?_, hmark⟩
    simpa [hm] using hc

/-- A scalar that is the same key as a number is a truth value, an integer or a finite double. -/
theorem number_cases (hw : IsLeaf w) (hs : Value.sameKey w v = true)
    (hv : v.toNumeral? = some (.number d)) :
    (∃ b, w = .bool b) ∨ (∃ i, w = .int i) ∨ ∃ s m e, w = .float (.finite s m e) := by
  have hscalar : Value.sameScalar w v = true := by
    cases w <;> first
      | exact hw.elim
      | simpa [Value.sameKey] using hs
  unfold Value.sameScalar at hscalar
  rw [hv] at hscalar
  cases w with
  | bool b => exact Or.inl ⟨b, rfl⟩
  | int i => exact Or.inr (Or.inl ⟨i, rfl⟩)
  | float x =>
    cases x with
    | finite s m e => exact Or.inr (Or.inr ⟨s, m, e, rfl⟩)
    | infinite s => cases hscalar
    | nan => cases hscalar
  | decimal n => exact hw.elim
  | _ => cases hscalar

theorem text?_int (i : Int) : (Value.int i).text? = (Integer.text? i).map .plain := by
  simp only [Value.text?, Value.shown?]

/-- Of the keys that are the same number only integers can have the text of a label. -/
theorem eq_int_of_text? (h : IsLabel k) (hdash : '-' ∉ k) (hw : IsLeaf w)
    (hs : Value.sameKey w v = true) (hv : v.toNumeral? = some (.number d))
    (ht : w.text? = some (.plain (String.ofList k))) :
    ∃ i, w = .int i ∧ toString i = String.ofList k := by
  have hmem : ∀ {s : String} {c : Char},
      some (RawText.plain s) = some (.plain (String.ofList k)) → c ∈ s.toList → c ∈ k := by
    intro s c hs hc
    rw [RawText.plain.inj (Option.some.inj hs)] at hc
    simpa using hc
  obtain ⟨b, rfl⟩ | ⟨i, rfl⟩ | ⟨s, m, e, rfl⟩ := number_cases hw hs hv
  · cases b
    · exact (h.not_mem (c := 'F') (by decide) (hmem ht (by decide))).elim
    · exact (h.not_mem (c := 'T') (by decide) (hmem ht (by decide))).elim
  · rw [text?_int, Option.map_eq_some_iff] at ht
    obtain ⟨s, hs, hplain⟩ := ht
    exact ⟨i, rfl, (toString_of_text? hs).trans (RawText.plain.inj hplain)⟩
  · obtain ⟨c, hc, hmark⟩ := exists_mark_text s m e
    exact (h.not_mem_of_isMark hdash hmark (hmem ht hc)).elim

theorem eq_of_sameKey_date {d : Date} (hs : Value.sameKey w (.date d) = true) : w = .date d := by
  cases w <;> simp_all [Value.sameKey, Value.sameScalar, Value.toNumeral?]

theorem eq_of_sameKey_null (hs : Value.sameKey w .null = true) : w = .null := by
  cases w <;> simp_all [Value.sameKey, Value.sameScalar, Value.toNumeral?]

/-- The key of a label has the text of the label exactly if the label is kept. -/
theorem keeps_iff (h : IsLabel k) (hv : LabelReading k v) (hw : IsLeaf w)
    (hs : Value.sameKey w v = true) : w.text? = some (.plain (String.ofList k)) ↔ Keeps k v w := by
  cases hv with
  | text hb hn hi =>
    rw [Value.sameKey_text_iff.mp hs]
    exact iff_of_true rfl ⟨hb, hn, fun hi' => by rw [hi] at hi'; cases hi'⟩
  | date hb hn hi hd =>
    rw [eq_of_sameKey_date hs]
    exact iff_of_true (congrArg (some ∘ RawText.plain) hd) ⟨hb, hn, fun hi' => by rw [hi] at hi'; cases hi'⟩
  | bool hb =>
    refine iff_of_false ?_ fun hk => by rw [hk.bool] at hb; cases hb
    intro ht
    -- Only an integer could have the text of the word, and integers are written without letters.
    have hdash : '-' ∉ k := fun hc => (isBool_letters hb _ hc).2 rfl
    obtain ⟨i, rfl, hi⟩ := eq_int_of_text? h hdash hw hs rfl ht
    obtain ⟨c, hc⟩ := List.exists_mem_of_ne_nil k h.ne_nil
    obtain ⟨hdigit, hne⟩ := isBool_letters hb c hc
    have hchar : c ∈ (toString i).toList := by simpa [hi] using hc
    rcases mem_toString_int hchar with hdigit' | hdash'
    · rw [hdigit] at hdigit'
      cases hdigit'
    · exact hne hdash'
  | null hn =>
    rw [eq_of_sameKey_null hs]
    refine iff_of_false ?_ fun hk => by rw [hk.null] at hn; cases hn
    intro ht
    have htext : "None".toList = k := by
      rw [RawText.plain.inj (Option.some.inj ht), String.toList_ofList]
    exact h.not_mem (c := 'N') (by decide) (by rw [← htext]; decide)
  | decimal hb hn hi hd hn' =>
    constructor
    · intro ht
      have hdash := dash_not_mem_of_isInt h hi
      obtain ⟨i, rfl, hi'⟩ := eq_int_of_text? h hdash hw hs rfl ht
      exact ⟨hb, hn, fun _ => ⟨hd, congrArg Value.int
        (Int.repr_injective (hi'.trans (toString_of_text? hn').symm))⟩⟩
    · intro hk
      rw [(hk.int hi).2, text?_int, hn']
      rfl
  | based hi hd =>
    refine iff_of_false ?_ fun hk => by rw [(hk.int hi).1] at hd; cases hd
    intro ht
    obtain ⟨i, rfl, hi'⟩ := eq_int_of_text? h (dash_not_mem_of_isInt h hi) hw hs rfl ht
    obtain hdecimal | ⟨c, rest, rfl, _⟩ := isInt_cases h hi
    · rw [hdecimal] at hd
      cases hd
    · exact toString_ne_zero_cons hi'

end CeilingGate.Yaml
