import CeilingGate.Yaml.Scalar
import Mathlib.Data.List.Induction

/-! Rows of decimal digits, and the numbers and dates that they write. A row is what its number is written
as, up to the zeros in front, and a date is what it is written as. -/
namespace CeilingGate.Yaml.Scalar

open CeilingGate.Text

variable {c : Char} {cs rest : List Char} {i : Int} {n : Nat}

theorem isDigit_bounds (h : c.isDigit = true) : 48 ≤ c.toNat ∧ c.toNat ≤ 57 := by
  simpa [Char.isDigit, UInt32.le_iff_toNat_le] using h

theorem digitChar_of_isDigit (h : c.isDigit = true) : Nat.digitChar (c.toNat - 48) = c := by
  obtain ⟨hlow, hhigh⟩ := isDigit_bounds h
  have hchar : ∀ d < 10, Nat.digitChar d = Char.ofNat (48 + d) := by decide
  rw [hchar _ (by omega), show 48 + (c.toNat - 48) = c.toNat by omega, Char.ofNat_toNat]

theorem number_concat (cs : List Char) (c : Char) :
    number (cs ++ [c]) = 10 * number cs + (c.toNat - 48) := by
  simp [number, ofDigits]

/-- A row of digits is its number padded with zeros. -/
theorem padding_number (hne : cs ≠ []) (h : ∀ c ∈ cs, c.isDigit = true) :
    List.replicate (cs.length - (Nat.toDigits 10 (number cs)).length) '0' ++
      Nat.toDigits 10 (number cs) = cs := by
  induction cs using List.reverseRecOn with
  | nil => exact (hne rfl).elim
  | append_singleton cs c ih =>
    have hc := h c (by simp)
    have hd : c.toNat - 48 < 10 := by
      have := isDigit_bounds hc
      omega
    have hlast : Nat.toDigits 10 (c.toNat - 48) = [c] := by
      rw [Nat.toDigits_of_lt_base hd, digitChar_of_isDigit hc]
    rw [number_concat]
    by_cases hempty : cs = []
    · subst hempty
      simp [number, ofDigits, hlast]
    · have hcs := ih hempty fun c hc => h c (by simp [hc])
      rcases Nat.eq_zero_or_pos (number cs) with hzero | hpos
      · -- Nothing but zeros came before.
        rw [hzero, Nat.toDigits_zero] at hcs
        have hlen : cs.length - 1 + 1 = cs.length := by
          have := List.length_pos_iff.mpr hempty
          omega
        rw [hzero, Nat.mul_zero, Nat.zero_add, hlast]
        conv_rhs => rw [← hcs]
        rw [List.length_append, List.length_singleton, List.length_singleton, Nat.add_sub_cancel,
          ← List.replicate_succ', hlen]
      · rw [← Nat.toDigits_append_toDigits (by decide) hpos hd, hlast, List.length_append,
          List.length_append, List.length_singleton, Nat.add_sub_add_right, ← List.append_assoc, hcs]

/-- Without zeros in front a row is what its number is written as. -/
theorem toDigits_number (hne : cs ≠ []) (h : ∀ c ∈ cs, c.isDigit = true)
    (hzero : cs.head? ≠ some '0') : Nat.toDigits 10 (number cs) = cs := by
  have hcs := padding_number hne h
  generalize hk : cs.length - (Nat.toDigits 10 (number cs)).length = k at hcs
  cases k with
  | zero => simpa using hcs
  | succ k =>
    rw [← hcs] at hzero
    simp [List.replicate_succ] at hzero

theorem padded_number (hne : cs ≠ []) (h : ∀ c ∈ cs, c.isDigit = true) :
    padded cs.length (number cs) = String.ofList cs :=
  congrArg String.ofList (padding_number hne h)

/-- Only zero is written with a zero in front. -/
theorem head_toDigits (hn : 0 < n) : (Nat.toDigits 10 n).head? ≠ some '0' := by
  induction n using Nat.strongRecOn with
  | ind n ih =>
    rcases Nat.lt_or_ge n 10 with hlt | hge
    · have hdigit : ∀ d < 10, 0 < d → Nat.digitChar d ≠ '0' := by decide
      rw [Nat.toDigits_of_lt_base hlt]
      simpa using hdigit n hlt hn
    · have hfront := ih (n / 10) (by omega) (by omega)
      rw [Nat.toDigits_of_base_le (by decide) hge, List.head?_append,
        Option.or_of_isSome (by simp [Nat.toDigits_ne_nil])]
      exact hfront

/-- The digits of a number write it. -/
theorem number_toDigits (n : Nat) : number (Nat.toDigits 10 n) = n := by
  have hdigit : ∀ d < 10, (Nat.digitChar d).toNat - 48 = d := by decide
  induction n using Nat.strongRecOn with
  | ind n ih =>
    rcases Nat.lt_or_ge n 10 with hlt | hge
    · rw [Nat.toDigits_of_lt_base hlt]
      simpa [number, ofDigits] using hdigit n hlt
    · rw [Nat.toDigits_of_base_le (by decide) hge, number_concat, ih (n / 10) (by omega),
        hdigit (n % 10) (by omega)]
      omega

theorem toList_toString_nat (n : Nat) : (toString n).toList = Nat.toDigits 10 n := by
  rw [Nat.toString_eq_ofList_toDigits, String.toList_ofList]

/-- An integer is written with digits, behind a dash if it is negative. -/
theorem toList_toString_int (i : Int) :
    (toString i).toList = Nat.toDigits 10 i.natAbs ∧ 0 ≤ i ∨
      (toString i).toList = '-' :: Nat.toDigits 10 i.natAbs ∧ i < 0 := by
  cases i with
  | ofNat n => exact Or.inl ⟨toList_toString_nat n, Int.natCast_nonneg n⟩
  | negSucc n =>
    refine Or.inr ⟨?_, Int.negSucc_lt_zero n⟩
    change ("-" ++ toString (n + 1)).toList = _
    rw [String.toList_append, toList_toString_nat]
    rfl

/-- No integer is written with a zero in front of other characters. -/
theorem toString_ne_zero_cons : toString i ≠ String.ofList ('0' :: c :: rest) := by
  intro h
  have htext := congrArg String.toList h
  rw [String.toList_ofList] at htext
  rcases toList_toString_int i with ⟨hi, _⟩ | ⟨hi, _⟩
  · rw [hi] at htext
    rcases Nat.eq_zero_or_pos i.natAbs with hzero | hpos
    · rw [hzero, Nat.toDigits_zero] at htext
      cases htext
    · exact head_toDigits hpos (by rw [htext]; rfl)
  · rw [hi] at htext
    cases htext

theorem mem_toString_int (h : c ∈ (toString i).toList) : c.isDigit = true ∨ c = '-' := by
  rcases toList_toString_int i with ⟨hi, _⟩ | ⟨hi, _⟩
  · rw [hi] at h
    exact Or.inl (Nat.isDigit_of_mem_toDigits (by decide) (by decide) h)
  · rw [hi] at h
    rcases List.mem_cons.mp h with rfl | h
    · exact Or.inr rfl
    · exact Or.inl (Nat.isDigit_of_mem_toDigits (by decide) (by decide) h)

theorem toString_of_text? {s : String} (h : Integer.text? i = some s) : toString i = s := by
  unfold Integer.text? at h
  split at h
  · exact Option.some.inj h
  · cases h

/-! ## Reading -/

theorem digitIn?_of_isDigit (h : c.isDigit = true) : digitIn? 10 c = some (c.toNat - 48) := by
  obtain ⟨hlow, hhigh⟩ := isDigit_bounds h
  have hall : ∀ n ∈ List.range' 48 10, digitIn? 10 (Char.ofNat n) = some (n - 48) := by decide
  simpa using hall c.toNat (List.mem_range'_1.mpr (by omega))

theorem isBlank_of_isDigit (h : c.isDigit = true) : isBlank c = false := by
  obtain ⟨hlow, hhigh⟩ := isDigit_bounds h
  have hall : ∀ n ∈ List.range' 48 10, isBlank (Char.ofNat n) = false := by decide
  simpa using hall c.toNat (List.mem_range'_1.mpr (by omega))

theorem readDigits?_of_digits (h : ∀ c ∈ cs, c.isDigit = true) (afterPart : Bool) :
    Integer.readDigits? 10 afterPart cs = some (cs.map fun c => c.toNat - 48) := by
  induction cs generalizing afterPart with
  | nil => rfl
  | cons c rest ih =>
    have hc := h c (by simp)
    have hbar : c ≠ '_' := by
      rintro rfl
      exact absurd hc (by decide)
    rw [Integer.readDigits?.eq_3 _ _ _ _ (fun _ _ he _ => hbar he)]
    simp [digitIn?_of_isDigit hc, ih fun c hc => h c (by simp [hc])]

theorem strip_of_digits (h : ∀ c ∈ cs, c.isDigit = true) : stripEnd (stripStart cs) = cs := by
  have hid : ∀ {cs : List Char}, (∀ c ∈ cs, c.isDigit = true) → cs.dropWhile isBlank = cs := by
    intro cs h
    cases cs with
    | nil => rfl
    | cons c rest => simp [isBlank_of_isDigit (h c (by simp))]
  unfold stripEnd stripStart
  rw [hid h, hid fun c hc => h c (List.mem_reverse.mp hc), List.reverse_reverse]

/-- A row of digits is read as its number, unless there are too many of them. -/
theorem parse?_of_digits (hne : cs ≠ []) (h : ∀ c ∈ cs, c.isDigit = true) :
    Integer.parse? 10 cs =
      if cs.length > Integer.digitLimit then none else some (number cs : Int) := by
  have hsign : Integer.splitSign cs = (false, cs) := by
    unfold Integer.splitSign
    split
    · exact absurd (h '-' (by simp)) (by decide)
    · exact absurd (h '+' (by simp)) (by decide)
    · rfl
  unfold Integer.parse?
  rw [strip_of_digits h, hsign]
  simp only [Integer.dropBaseMark, Integer.baseMark?, readDigits?_of_digits h]
  cases cs with
  | nil => exact (hne rfl).elim
  | cons c rest => simp [number]

/-- Numbers that were read can be written. -/
theorem text?_number (hne : cs ≠ []) (h : ∀ c ∈ cs, c.isDigit = true)
    (hl : cs.length ≤ Integer.digitLimit) :
    Integer.text? (number cs) = some (toString (number cs : Int)) := by
  have hlen : (Nat.toDigits 10 (number cs)).length ≤ cs.length := by
    conv_rhs => rw [← padding_number hne h]
    simp
  have hlt : number cs < 10 ^ Integer.digitLimit :=
    (Nat.length_toDigits_le_iff (by decide) (by decide)).mp (Nat.le_trans hlen hl)
  unfold Integer.text?
  rw [if_pos (by simpa using hlt)]

/-! ## Dates -/

variable {digits : List Char} {least most : Nat} {m : MomentText}
  {time : (List Char × List Char × List Char × List Char) × List Char}

theorem takeDigits_eq_some (h : MomentText.takeDigits least most cs = some (digits, rest)) :
    cs = digits ++ rest ∧ (∀ c ∈ digits, c.isDigit = true) ∧ least ≤ digits.length ∧
      digits.length ≤ most := by
  unfold MomentText.takeDigits at h
  dsimp only at h
  split at h
  · cases h
  · next hleast =>
    cases h
    have htake : (cs.take most).takeWhile Char.isDigit <+: cs.take most :=
      List.takeWhile_prefix Char.isDigit
    refine ⟨(List.prefix_iff_eq_append.mp (htake.trans (List.take_prefix most cs))).symm,
      fun c hc => List.all_eq_true.mp List.all_takeWhile c hc, by omega, ?_⟩
    exact Nat.le_trans htake.length_le (List.length_take_le most cs)

theorem skip_eq_some (h : MomentText.skip c cs = some rest) : cs = c :: rest := by
  unfold MomentText.skip at h
  split at h
  · split at h
    · next hc =>
      cases h
      rw [eq_of_beq hc]
    · cases h
  · cases h

theorem mem_of_timeStart? (h : MomentText.timeStart? cs = some rest) (hc : c ∈ rest) : c ∈ cs := by
  unfold MomentText.timeStart? at h
  split at h
  · cases h
    exact List.mem_cons_of_mem _ hc
  · cases h
    exact List.mem_cons_of_mem _ hc
  · split at h
    · cases h
      exact List.mem_cons_of_mem _ ((List.dropWhile_suffix _).subset hc)
    · cases h
  · cases h

/-- There is no time without a colon. -/
theorem colon_mem_of_readTime (h : MomentText.readTime cs = some time) : ':' ∈ cs := by
  obtain ⟨⟨hour, rest⟩, hhour, h⟩ := Option.bind_eq_some_iff.mp h
  obtain ⟨rest', hcolon, _⟩ := Option.bind_eq_some_iff.mp h
  rw [(takeDigits_eq_some hhour).1, skip_eq_some hcolon]
  simp

/-- What is read as a moment without a colon is three rows of digits between dashes. -/
theorem parse?_without_colon (h : MomentText.parse? cs = some m) (hc : ':' ∉ cs) :
    m.time? = none ∧ cs = m.year ++ '-' :: m.month ++ '-' :: m.day ∧ m.year.length = 4 ∧
      ∀ c ∈ m.year ++ m.month ++ m.day, c.isDigit = true := by
  obtain ⟨⟨year, afterYear⟩, hyear, hbehind⟩ := Option.bind_eq_some_iff.mp h
  obtain ⟨fromMonth, hdash, hbehind'⟩ := Option.bind_eq_some_iff.mp hbehind
  obtain ⟨⟨month, afterMonth⟩, hmonth, hmore⟩ := Option.bind_eq_some_iff.mp hbehind'
  obtain ⟨fromDay, hdash', hmore'⟩ := Option.bind_eq_some_iff.mp hmore
  obtain ⟨⟨day, afterDay⟩, hday, hend⟩ := Option.bind_eq_some_iff.mp hmore'
  obtain ⟨hcs, hyears, hleast, hmost⟩ := takeDigits_eq_some hyear
  obtain ⟨hfromMonth, hmonths, _⟩ := takeDigits_eq_some hmonth
  obtain ⟨hfromDay, hdays, _⟩ := takeDigits_eq_some hday
  rw [skip_eq_some hdash, hfromMonth, skip_eq_some hdash', hfromDay] at hcs
  dsimp only at hend
  split at hend
  · next hempty =>
    cases hend
    refine ⟨rfl, by simp [hcs, List.isEmpty_iff.mp hempty], Nat.le_antisymm hmost hleast, ?_⟩
    simpa [or_imp, forall_and] using ⟨hyears, hmonths, hdays⟩
  · obtain ⟨afterStart, hstart, htail⟩ := Option.bind_eq_some_iff.mp hend
    obtain ⟨time, htime, _⟩ := Option.bind_eq_some_iff.mp htail
    have hmem := mem_of_timeStart? hstart (colon_mem_of_readTime htime)
    exact (hc (by simp [hcs, hmem])).elim

/-- A date that stands alone is written as it stands. -/
theorem date_of_isImplicit (h : MomentText.isImplicit cs = true) (hc : ':' ∉ cs)
    (hlast : cs.getLast? ≠ some '\n') {v : Value} (hv : readTimestamp cs = .ok v) :
    ∃ d : Date, v = .date d ∧ d.text = String.ofList cs := by
  unfold MomentText.isImplicit at h
  split at h
  · next m hm =>
    obtain ⟨htime, hcs, hyear, hdigits⟩ := parse?_without_colon hm hc
    obtain ⟨hmonth, hday⟩ : m.month.length = 2 ∧ m.day.length = 2 := by simpa [htime] using h
    refine ⟨⟨number m.year, number m.month, number m.day⟩, ?_, ?_⟩
    · unfold readTimestamp at hv
      simp only [beq_iff_eq, hlast, if_false, hm, htime] at hv
      split at hv
      · exact (Except.ok.inj hv).symm
      · cases hv
    · have hpad : ∀ {part : List Char} {places : Nat}, part.length = places → 0 < places →
          (∀ c ∈ part, c ∈ m.year ++ m.month ++ m.day) →
            padded places (number part) = String.ofList part := by
        rintro part _ rfl hpos hpart
        exact padded_number (List.length_pos_iff.mp hpos) fun c hc => hdigits c (hpart c hc)
      conv_rhs => rw [hcs]
      unfold Date.text
      rw [hpad hyear (by decide) (by simp +contextual), hpad hmonth (by decide) (by simp +contextual),
        hpad hday (by decide) (by simp +contextual)]
      apply String.toList_inj.mp
      simp
  · cases h

end CeilingGate.Yaml.Scalar
