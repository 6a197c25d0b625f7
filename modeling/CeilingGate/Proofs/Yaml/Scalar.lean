import CeilingGate.Proofs.Outcome
import CeilingGate.Proofs.Yaml.Ends
import CeilingGate.Yaml.Scalar

/-! The scalars on which the reader of their tag stops for good. -/
namespace CeilingGate.Yaml

open Scalar

variable {α : Type} {cs : List Char} {tag : String} {read : List Char → Except Failure Value}
  {a : Abort}

/-- A numeral without its underscores and its sign. -/
def bareNumeral (cs : List Char) : List Char := (Integer.splitSign (cs.filter (· != '_'))).2

/-- A word that is no truth value. -/
def NoTruthValue (cs : List Char) : Prop :=
  String.ofList (small cs) ∉ ["yes", "true", "on", "no", "false", "off"]

/-- A double in base sixty with so many parts that the weight of one of them is no double. -/
def HasHugeWeight (cs : List Char) : Prop :=
  ':' ∈ bareNumeral (small cs) ∧
    ∃ parts, (Form.splitColons (bareNumeral (small cs))).mapM Binary64.parse? = some parts ∧
      ∃ n < parts.length, Binary64.ofInt? (60 ^ n) = none

/-- A text that is no moment, one line feed at its end aside. -/
def NoMoment (cs : List Char) : Prop :=
  MomentText.parse? (if cs.getLast? == some '\n' then cs.dropLast else cs) = none

/-- Texts on which the reader of a tag stops for good. -/
inductive Unreadable (tag : String) (cs : List Char) : Abort → Prop
  | bool (ht : tag = standard "bool") (h : NoTruthValue cs) :
      Unreadable tag cs (.missingEntry (String.ofList (small cs)))
  | int (ht : tag = standard "int") (h : bareNumeral cs = []) : Unreadable tag cs .missingCharacter
  | float (ht : tag = standard "float") (h : (small cs).filter (· != '_') = []) :
      Unreadable tag cs .missingCharacter
  | weight (ht : tag = standard "float") (h : HasHugeWeight cs) : Unreadable tag cs .hugeNumber
  | timestamp (ht : tag = standard "timestamp") (h : NoMoment cs) :
      Unreadable tag cs .missingMatch

theorem map_eq_error_iff {ε β : Type} {x : Except ε α} {f : α → β} {e : ε} :
    x.map f = .error e ↔ x = .error e := by
  cases x <;> simp [Except.map]

theorem orBadValue_ne_abort (x : Option α) : orBadValue x ≠ .error (.abort a) := by
  cases x <;> simp [orBadValue]

theorem readBool_eq_abort_iff :
    readBool cs = .error (.abort a) ↔
      NoTruthValue cs ∧ a = .missingEntry (String.ofList (small cs)) := by
  unfold readBool NoTruthValue
  generalize String.ofList (small cs) = word
  dsimp only
  split
  · next h =>
    have hmem : word ∈ ["yes", "true", "on", "no", "false", "off"] := by
      simp only [List.contains_iff_mem, List.mem_cons] at h ⊢
      grind
    simp [hmem]
  · next h =>
    split
    · next h' =>
      have hmem : word ∈ ["yes", "true", "on", "no", "false", "off"] := by
        simp only [List.contains_iff_mem, List.mem_cons] at h' ⊢
        grind
      simp [hmem]
    · next h' =>
      have hmem : word ∉ ["yes", "true", "on", "no", "false", "off"] := by
        simp only [List.contains_iff_mem, List.mem_cons] at h h' ⊢
        grind
      simp [hmem, eq_comm]

theorem unsignedInt_eq_abort_iff :
    unsignedInt cs = .error (.abort a) ↔ cs = [] ∧ a = .missingCharacter := by
  unfold unsignedInt
  split
  · simp [eq_comm]
  · simp
  · simp [orBadValue_ne_abort]
  · simp [orBadValue_ne_abort]
  · simp [orBadValue_ne_abort]
  · next hne _ _ _ _ =>
    have hcs : cs ≠ [] := fun h => hne h
    split
    · simp [map_eq_error_iff, orBadValue_ne_abort, hcs]
    · simp [orBadValue_ne_abort, hcs]

theorem readInt_eq_abort_iff :
    readInt cs = .error (.abort a) ↔ bareNumeral cs = [] ∧ a = .missingCharacter := by
  unfold readInt bareNumeral splitSign?
  cases h : cs.filter (· != '_') with
  | nil => simp [Integer.splitSign, eq_comm]
  | cons c rest => simp [map_eq_error_iff, unsignedInt_eq_abort_iff]

theorem addSixtieths_eq_abort_iff {sum : Binary64} {unit : Int} {parts : List Binary64} :
    addSixtieths sum unit parts = .error (.abort a) ↔
      (∃ n < parts.length, Binary64.ofInt? (unit * 60 ^ n) = none) ∧ a = .hugeNumber := by
  induction parts generalizing sum unit with
  | nil => simp [addSixtieths]
  | cons x rest ih =>
    unfold addSixtieths
    cases hw : Binary64.ofInt? unit with
    | none =>
      have hfirst : ∃ n < (x :: rest).length, Binary64.ofInt? (unit * 60 ^ n) = none :=
        ⟨0, by simp, by simpa using hw⟩
      constructor
      · intro h
        cases h
        exact ⟨hfirst, rfl⟩
      · rintro ⟨_, rfl⟩
        rfl
    | some weight =>
      dsimp only
      rw [ih]
      have hlater : (∃ n < (x :: rest).length, Binary64.ofInt? (unit * 60 ^ n) = none) ↔
          ∃ n < rest.length, Binary64.ofInt? (unit * 60 * 60 ^ n) = none := by
        constructor
        · rintro ⟨n, hn, h⟩
          cases n with
          | zero => simp [hw] at h
          | succ n => exact ⟨n, by simpa using hn, by rwa [Int.mul_assoc, ← Int.pow_succ']⟩
        · rintro ⟨n, hn, h⟩
          exact ⟨n + 1, by simpa using hn, by rwa [Int.pow_succ', ← Int.mul_assoc]⟩
      rw [hlater]

theorem unsignedFloat_eq_abort_iff :
    unsignedFloat cs = .error (.abort a) ↔
      (':' ∈ cs ∧ ∃ parts, (Form.splitColons cs).mapM Binary64.parse? = some parts ∧
        ∃ n < parts.length, Binary64.ofInt? (60 ^ n) = none) ∧ a = .hugeNumber := by
  have hword : ∀ s : String, ':' ∉ s.toList → String.ofList cs = s → ':' ∉ cs := by
    rintro s hs rfl
    simpa using hs
  unfold unsignedFloat
  dsimp only
  split
  · next h => simp [hword _ (by decide) (eq_of_beq h)]
  · split
    · next h => simp [hword _ (by decide) (eq_of_beq h)]
    · split
      · next hc =>
        cases hp : (Form.splitColons cs).mapM Binary64.parse? with
        | none => simp [orBadValue, bind, Except.bind]
        | some parts =>
          simp only [orBadValue, bind, Except.bind, addSixtieths_eq_abort_iff]
          simp_all
      · next hc => simp_all [orBadValue_ne_abort]

theorem readFloat_eq_abort_iff :
    readFloat cs = .error (.abort a) ↔
      ((small cs).filter (· != '_') = [] ∧ a = .missingCharacter) ∨
        (HasHugeWeight cs ∧ a = .hugeNumber) := by
  unfold readFloat HasHugeWeight bareNumeral splitSign?
  cases h : (small cs).filter (· != '_') with
  | nil => simp [Integer.splitSign, eq_comm]
  | cons c rest => simp [map_eq_error_iff, unsignedFloat_eq_abort_iff]

theorem readBinary_ne_abort : readBinary cs ≠ .error (.abort a) := by
  unfold readBinary
  dsimp only
  split
  · split <;> simp
  · simp

theorem readTimestamp_eq_abort_iff :
    readTimestamp cs = .error (.abort a) ↔ NoMoment cs ∧ a = .missingMatch := by
  unfold readTimestamp NoMoment
  dsimp only
  split
  · next h =>
    constructor
    · intro he
      cases he
      exact ⟨h, rfl⟩
    · rintro ⟨_, rfl⟩
      rfl
  · next m h =>
    simp only [h, reduceCtorEq, false_and, iff_false]
    split
    · split <;> simp
    · split <;> simp

@[simp] theorem standard_inj {s t : String} : standard s = standard t ↔ s = t :=
  String.append_right_inj _

theorem unreadable_iff : Unreadable tag cs a ↔
    (tag = standard "bool" ∧ NoTruthValue cs ∧ a = .missingEntry (String.ofList (small cs))) ∨
      (tag = standard "int" ∧ bareNumeral cs = [] ∧ a = .missingCharacter) ∨
      (tag = standard "float" ∧ (((small cs).filter (· != '_') = [] ∧ a = .missingCharacter) ∨
        (HasHugeWeight cs ∧ a = .hugeNumber))) ∨
      (tag = standard "timestamp" ∧ NoMoment cs ∧ a = .missingMatch) := by
  constructor
  · intro h
    cases h with
    | bool ht h => exact Or.inl ⟨ht, h, rfl⟩
    | int ht h => exact Or.inr (Or.inl ⟨ht, h, rfl⟩)
    | float ht h => exact Or.inr (Or.inr (Or.inl ⟨ht, Or.inl ⟨h, rfl⟩⟩))
    | weight ht h => exact Or.inr (Or.inr (Or.inl ⟨ht, Or.inr ⟨h, rfl⟩⟩))
    | timestamp ht h => exact Or.inr (Or.inr (Or.inr ⟨ht, h, rfl⟩))
  · rintro (⟨ht, h, rfl⟩ | ⟨ht, h, rfl⟩ | ⟨ht, ⟨h, rfl⟩ | ⟨h, rfl⟩⟩ | ⟨ht, h, rfl⟩)
    · exact .bool ht h
    · exact .int ht h
    · exact .float ht h
    · exact .weight ht h
    · exact .timestamp ht h

theorem reader_cases (h : reader? tag = some read) :
    (tag = standard "null" ∧ read = fun _ => .ok .null) ∨
    (tag = standard "bool" ∧ read = readBool) ∨ (tag = standard "int" ∧ read = readInt) ∨
    (tag = standard "float" ∧ read = readFloat) ∨ (tag = standard "binary" ∧ read = readBinary) ∨
    (tag = standard "timestamp" ∧ read = readTimestamp) ∨
    (tag = standard "str" ∧ read = fun cs => .ok (.text (String.ofList cs))) := by
  unfold reader? at h
  simp only [beq_iff_eq] at h
  repeat' split at h
  all_goals cases h
  all_goals simp_all

/-- A reader stops for good on the texts that are unreadable under its tag, and on no others. -/
theorem reader_eq_abort_iff (h : reader? tag = some read) :
    read cs = .error (.abort a) ↔ Unreadable tag cs a := by
  rw [unreadable_iff]
  rcases reader_cases h with ⟨rfl, rfl⟩ | ⟨rfl, rfl⟩ | ⟨rfl, rfl⟩ | ⟨rfl, rfl⟩ | ⟨rfl, rfl⟩ |
    ⟨rfl, rfl⟩ | ⟨rfl, rfl⟩
  · simp
  · simp [readBool_eq_abort_iff]
  · simp [readInt_eq_abort_iff]
  · simp [readFloat_eq_abort_iff]
  · simp [readBinary_ne_abort]
  · simp [readTimestamp_eq_abort_iff]
  · simp

/-- Only tags that read scalars make them unreadable. -/
theorem Unreadable.exists_reader (h : Unreadable tag cs a) :
    ∃ read, reader? tag = some read ∧ read cs = .error (.abort a) := by
  have hreader : ∃ read, reader? tag = some read := by
    cases h with
    | bool ht => exact ⟨_, by rw [ht]; rfl⟩
    | int ht => exact ⟨_, by rw [ht]; rfl⟩
    | float ht => exact ⟨_, by rw [ht]; rfl⟩
    | weight ht => exact ⟨_, by rw [ht]; rfl⟩
    | timestamp ht => exact ⟨_, by rw [ht]; rfl⟩
  obtain ⟨read, hr⟩ := hreader
  exact ⟨read, hr, (reader_eq_abort_iff hr).mpr h⟩

/-- Values of scalars. -/
def IsLeaf : Value → Prop
  | .null | .bool _ | .int _ | .float _ | .text _ | .brokenText _ | .bytes _ | .date _
  | .moment _ => True
  | _ => False

theorem readBool_leaf {v : Value} (h : readBool cs = .ok v) : IsLeaf v := by
  unfold readBool at h
  dsimp only at h
  split at h
  · cases h
    trivial
  · split at h
    · cases h
      trivial
    · cases h

theorem readTimestamp_leaf {v : Value} (h : readTimestamp cs = .ok v) : IsLeaf v := by
  unfold readTimestamp at h
  dsimp only at h
  split at h
  · cases h
  · split at h
    · split at h
      · cases h
        trivial
      · cases h
    · split at h
      · cases h
        trivial
      · cases h

theorem reader_leaf {v : Value} (h : reader? tag = some read) (hv : read cs = .ok v) :
    IsLeaf v := by
  rcases reader_cases h with ⟨rfl, rfl⟩ | ⟨rfl, rfl⟩ | ⟨rfl, rfl⟩ | ⟨rfl, rfl⟩ | ⟨rfl, rfl⟩ |
    ⟨rfl, rfl⟩ | ⟨rfl, rfl⟩
  · cases hv
    trivial
  · exact readBool_leaf hv
  · unfold readInt at hv
    split at hv
    · cases hv
    · obtain ⟨n, _, rfl⟩ := map_eq_ok.mp hv
      trivial
  · unfold readFloat at hv
    split at hv
    · cases hv
    · obtain ⟨x, _, rfl⟩ := map_eq_ok.mp hv
      trivial
  · unfold readBinary at hv
    dsimp only at hv
    split at hv
    · split at hv
      · cases hv
        trivial
      · cases hv
    · cases hv
  · exact readTimestamp_leaf hv
  · cases hv
    trivial

end CeilingGate.Yaml
