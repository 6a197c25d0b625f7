import CeilingGate.Text.Quoted

/-! Texts as they are supplied. They may hold halves of pairs, which are no characters by themselves; such
a text is known by its codes. -/
namespace CeilingGate

open CeilingGate.Text

/-- The codes of a text of which at least one is half of a pair. -/
structure BrokenText where
  codes : List Nat
  hasHalf : codes.any isHalfCode = true
deriving DecidableEq, Repr

inductive RawText
  | plain (s : String)
  | broken (b : BrokenText)
deriving DecidableEq, Repr

namespace RawText

instance : Coe String RawText := ⟨plain⟩

instance : Inhabited RawText := ⟨plain ""⟩

def codes : RawText → List Nat
  | plain s => s.toList.map Char.toNat
  | broken b => b.codes

def ofCodes (codes : List Nat) : RawText :=
  if h : codes.any isHalfCode = true then broken ⟨codes, h⟩
  else plain (String.ofList (codes.map Char.ofNat))

def isEmpty : RawText → Bool
  | plain s => s.isEmpty
  | broken _ => false

instance : Append RawText where
  append a b :=
    match a, b with
    | plain s, plain t => plain (s ++ t)
    | a, b => ofCodes (a.codes ++ b.codes)

/-- Texts are in the order of their codes. -/
instance : LT RawText := ⟨fun a b => a.codes < b.codes⟩

instance (a b : RawText) : Decidable (a < b) := inferInstanceAs (Decidable (a.codes < b.codes))

/-- The characters of a text; one stands for all halves. -/
def shape : RawText → List Char
  | plain s => s.toList
  | broken b => b.codes.map fun n => if isHalfCode n then '\ufffd' else Char.ofNat n

/-- The first characters of a text. -/
def take (n : Nat) : RawText → RawText
  | plain s => String.ofList (s.toList.take n)
  | broken b => ofCodes (b.codes.take n)

/-- Codes without the blanks at their two ends. -/
def stripCodes (codes : List Nat) : List Nat :=
  let rest := codes.dropWhile fun n => isBlank (Char.ofNat n)
  (rest.reverse.dropWhile fun n => isBlank (Char.ofNat n)).reverse

/-- The text without the blanks at its two ends. -/
def strip : RawText → RawText
  | plain s => Text.strip s
  | broken b => ofCodes (stripCodes b.codes)

/-- The texts one behind the other, with a separator between each two. -/
def intercalate (separator : RawText) : List RawText → RawText
  | [] => ""
  | [t] => t
  | t :: rest => t ++ separator ++ intercalate separator rest

def quoted : RawText → String
  | plain s => Text.quoted s
  | broken b => quotedCodes b.codes

theorem isHalfCode_toNat (c : Char) : isHalfCode c.toNat = false := by
  have hvalid := c.valid
  simp only [UInt32.isValidChar, Nat.isValidChar] at hvalid
  simp only [isHalfCode, Char.toNat, Bool.and_eq_false_iff, decide_eq_false_iff_not]
  omega

theorem any_codes_plain (s : String) : (plain s).codes.any isHalfCode = false := by
  simp [codes, isHalfCode_toNat]

theorem ofCodes_codes : ∀ t : RawText, ofCodes t.codes = t
  | plain s => by
    rw [ofCodes, dif_neg (by simp [any_codes_plain])]
    simp [codes, Function.comp_def, Char.ofNat_toNat]
  | broken b => dif_pos b.hasHalf

/-- A text is known by its codes. -/
theorem eq_of_codes {a b : RawText} (h : a.codes = b.codes) : a = b := by
  rw [← ofCodes_codes a, ← ofCodes_codes b, h]

theorem codes_ofCodes_of_half {codes : List Nat} (h : codes.any isHalfCode = true) :
    (ofCodes codes).codes = codes := by
  simp [ofCodes, h, RawText.codes]

@[simp] theorem plain_append_plain (s t : String) : plain s ++ plain t = plain (s ++ t) := rfl

@[simp] theorem codes_append (a b : RawText) : (a ++ b).codes = a.codes ++ b.codes := by
  match a, b with
  | plain s, plain t => simp [codes]
  | broken a, t =>
    exact codes_ofCodes_of_half (by simp only [List.any_append, codes, a.hasHalf, Bool.true_or])
  | plain s, broken b =>
    exact codes_ofCodes_of_half (by
      simp only [List.any_append, any_codes_plain, Bool.false_or]
      exact b.hasHalf)

/-- Half of a pair stays one behind any text. -/
theorem append_broken (a : RawText) {t : RawText} (h : t.codes.any isHalfCode = true) :
    ∃ b, a ++ t = broken b := by
  have hcodes : (a ++ t).codes.any isHalfCode = true := by
    rw [codes_append, List.any_append, h, Bool.or_true]
  cases hat : a ++ t with
  | plain s =>
    rw [hat, any_codes_plain] at hcodes
    cases hcodes
  | broken b => exact ⟨b, rfl⟩

theorem append_assoc (a b c : RawText) : a ++ b ++ c = a ++ (b ++ c) :=
  eq_of_codes (by simp)

theorem isEmpty_iff {t : RawText} : t.isEmpty = true ↔ t = plain "" := by
  cases t <;> simp [isEmpty]

theorem isEmpty_eq_false_iff {t : RawText} : t.isEmpty = false ↔ t ≠ plain "" := by
  rw [← Bool.not_eq_true, isEmpty_iff]

theorem lt_trans {a b c : RawText} (h : a < b) (h' : b < c) : a < c :=
  List.lt_trans (α := Nat) h h'

theorem lt_irrefl (a : RawText) : ¬a < a := List.lt_irrefl (α := Nat) a.codes

/-- Of two different texts one comes before the other. -/
theorem lt_or_gt_of_ne {a b : RawText} (h : a ≠ b) : a < b ∨ b < a := by
  by_cases hab : a.codes < b.codes
  · exact .inl hab
  · by_cases hba : b.codes < a.codes
    · exact .inr hba
    · exact absurd (eq_of_codes (List.le_antisymm (List.not_lt.mp hba) (List.not_lt.mp hab))) h

end RawText

end CeilingGate
