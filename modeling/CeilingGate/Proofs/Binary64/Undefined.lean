import CeilingGate.Binary64.Text
import CeilingGate.Proofs.Binary64.Range
import CeilingGate.Proofs.Decimal.Numeral

/-! Which texts are read as the undefined number: its name with an optional sign, in any case of letters,
and no others. -/
namespace CeilingGate.Binary64

open CeilingGate.Text CeilingGate.Numeral

variable {cs w : List Char}

/-- The name of the undefined number, between blanks. -/
def NamesUndefined (cs : List Char) : Prop :=
  ∃ s w negative, stripEnd (stripStart cs) = s ++ w ∧ IsSign s negative ∧
    w.map smallAscii = "nan".toList

theorem underscoresFit_of_not_mem (h : '_' ∉ cs) (before : Option Char) :
    underscoresFit before cs = true := by
  induction cs generalizing before with
  | nil => rfl
  | cons c cs ih =>
    have hc : c ≠ '_' := fun hc => h (by simp [hc])
    rw [underscoresFit]
    · exact ih (fun hmem => h (by simp [hmem])) _
    · rintro rfl
      exact hc rfl

/-- Where an underscore fits, a digit is next to it. -/
theorem exists_digit_of_underscoresFit {before : Option Char} (h : underscoresFit before cs = true)
    (hmem : '_' ∈ cs) : ∃ c ∈ cs, isDecimalDigit c = true := by
  induction cs generalizing before with
  | nil => cases hmem
  | cons c cs ih =>
    by_cases hc : c = '_'
    · subst hc
      rw [underscoresFit] at h
      obtain ⟨⟨-, hafter⟩, -⟩ := by simpa only [Bool.and_eq_true] using h
      cases cs with
      | nil => cases hafter
      | cons c' cs => exact ⟨c', by simp, hafter⟩
    · rw [underscoresFit] at h
      · obtain ⟨d, hd, hdigit⟩ := ih h (by simpa [Ne.symm hc] using hmem)
        exact ⟨d, by simp [hd], hdigit⟩
      · rintro rfl
        exact hc rfl

/-- The name is written with the letters `a` and `n`, which are no digits, signs or underscores. -/
theorem of_mem_name {c : Char} (hw : w.map smallAscii = "nan".toList) (hc : c ∈ w) :
    c ∈ ['a', 'n', 'A', 'N'] := by
  have hall : ∀ n ∈ List.range' 65 26, smallAscii (Char.ofNat n) ∈ "nan".toList →
      Char.ofNat n ∈ ['a', 'n', 'A', 'N'] := by decide
  have hsmall : smallAscii c ∈ "nan".toList := hw ▸ List.mem_map_of_mem hc
  by_cases hcapital : 'A' ≤ c ∧ c ≤ 'Z'
  · have hlow : 65 ≤ c.toNat := hcapital.1
    have hhigh : c.toNat ≤ 90 := hcapital.2
    rw [← Char.ofNat_toNat c] at hsmall ⊢
    exact hall _ (List.mem_range'_1.mpr ⟨hlow, by omega⟩) hsmall
  · have hsame : smallAscii c = c := by simp [smallAscii, hcapital]
    rw [hsame] at hsmall
    have hletters : "nan".toList ⊆ ['a', 'n', 'A', 'N'] := by decide
    exact hletters hsmall

theorem not_isDecimalDigit_of_name {s : List Char} {negative : Bool} (hs : IsSign s negative)
    (hw : w.map smallAscii = "nan".toList) : ∀ c ∈ s ++ w, isDecimalDigit c = false ∧ c ≠ '_' := by
  have hletters : ['a', 'n', 'A', 'N', '+', '-'].all (fun c => !isDecimalDigit c && c != '_') = true := by
    decide
  intro c hc
  suffices hmem : c ∈ ['a', 'n', 'A', 'N', '+', '-'] by
    simpa using List.all_eq_true.mp hletters c hmem
  rcases List.mem_append.mp hc with hc | hc
  · cases hs <;> simp_all
  · have := of_mem_name hw hc
    simp_all
    tauto

theorem readDecimal?_map_ne (cs : List Char) (negative : Bool) :
    (readDecimal? cs).map (fun (n, e) => ofDecimal negative n e) ≠ some .nan := by
  intro h
  obtain ⟨r, -, hr⟩ := Option.map_eq_some_iff.mp h
  exact (hasSign_ofDecimal negative r.1 r.2).defined hr

/-- A text is read as the undefined number exactly if it names it. -/
theorem parse?_eq_nan_iff : parse? cs = some .nan ↔ NamesUndefined cs := by
  unfold parse? NamesUndefined
  generalize stripEnd (stripStart cs) = trimmed
  dsimp only
  constructor
  · intro h
    split at h
    · cases h
    · next hfits =>
      simp only [Bool.not_eq_true', Bool.not_eq_false] at hfits
      obtain ⟨s, hs, hsign⟩ := splitSign_spec (trimmed.filter (· != '_'))
      generalize splitSign (trimmed.filter (· != '_')) = signed at h hs hsign
      split at h
      · cases h
      · split at h
        · next hname =>
          have hw : signed.2.map smallAscii = "nan".toList := by
            rw [← eq_of_beq hname, String.toList_ofList]
          have hplain := not_isDecimalDigit_of_name hsign hw
          refine ⟨s, signed.2, signed.1, ?_, hsign, hw⟩
          have hnone : '_' ∉ trimmed := by
            intro hmem
            obtain ⟨d, hd, hdigit⟩ := exists_digit_of_underscoresFit hfits hmem
            have hne : d ≠ '_' := by
              rintro rfl
              exact absurd hdigit (by decide)
            have hkept : d ∈ s ++ signed.2 := hs ▸ List.mem_filter.mpr ⟨hd, by simpa using hne⟩
            rw [(hplain d hkept).1] at hdigit
            cases hdigit
          rw [← hs, List.filter_eq_self.mpr]
          intro c hc
          simpa using fun he : c = '_' => hnone (he ▸ hc)
        · exact (readDecimal?_map_ne _ _ h).elim
  · rintro ⟨s, w, negative, rfl, hs, hw⟩
    have hplain := not_isDecimalDigit_of_name hs hw
    have hnone : '_' ∉ s ++ w := fun hmem => (hplain _ hmem).2 rfl
    have hfilter : (s ++ w).filter (· != '_') = s ++ w :=
      List.filter_eq_self.mpr fun c hc => by simpa using (hplain c hc).2
    have hsigns : List.Disjoint ['a', 'n', 'A', 'N'] ['-', '+'] := by simp
    have hsplit : splitSign (s ++ w) = (negative, w) :=
      splitSign_append hs fun c hc => hsigns (of_mem_name hw (List.mem_of_mem_head? hc))
    rw [if_neg (by simp [underscoresFit_of_not_mem hnone]), hfilter, hsplit]
    simp only [hw]
    rfl

end CeilingGate.Binary64
