import CeilingGate.Duration
import CeilingGate.Proofs.Binary64.Range
import CeilingGate.Proofs.Binary64.Undefined
import CeilingGate.Proofs.Outcome

/-! Which values are read as a duration above zero. All others are refused, but for two kinds: integers beyond
all doubles end the work, and the undefined number is let through. -/
namespace CeilingGate.Duration

open CeilingGate.Text CeilingGate.Binary64

variable {v : Value} {x : Binary64} {s : String} {a : Abort}

/-- An integer that no double is near. -/
def IsHuge (v : Value) : Prop := ∃ i, v = .int i ∧ tooLarge ≤ i.natAbs

/-- The undefined number, or what has its name as its text. -/
def IsUndefined : Value → Prop
  | .float x => x = .nan
  | .bool _ | .int _ | .brokenText _ => False
  | v => ∃ s, v.text? = some (.plain s) ∧ NamesUndefined (strip s).toList

/-! ## Parts -/

theorem unit_finite (u : TimeUnit) : ∃ n e, u.seconds = .finite false n e ∧ n ≠ 0 := by
  cases u with
  | millisecond => exact ⟨4611686018427388, -62, by decide +kernel, by decide⟩
  | second => exact ⟨2 ^ 52, -52, by decide +kernel, by decide⟩
  | minute => exact ⟨60 * 2 ^ 47, -47, by decide +kernel, by decide⟩
  | hour => exact ⟨3600 * 2 ^ 41, -41, by decide +kernel, by decide⟩

theorem hasSign_part (p : Part) : HasSign p.seconds false := by
  obtain ⟨n, e, hu, hn⟩ := unit_finite p.unit
  have hnumber : HasSign p.number false := hasSign_ofDecimal ..
  unfold Part.seconds
  rw [hu]
  exact hnumber.mul_finite false hn e

theorem hasSign_sum (ps : List Part) : HasSign (sum ps) false := by
  have hfrom : ∀ total : Binary64, HasSign total false →
      HasSign (ps.foldl (fun total p => total + p.seconds) total) false := by
    induction ps with
    | nil => exact fun _ h => h
    | cons p ps ih => exact fun total h => ih _ (h.add (hasSign_part p))
  exact hfrom _ (hasSign_finite ..)

/-! ## Seconds -/

theorem secondsOfText?_eq_nan_iff : secondsOfText? s = some .nan ↔ NamesUndefined s.toList := by
  rw [← parse?_eq_nan_iff, secondsOfText?]
  cases parse? s.toList with
  | some x => simp
  | none =>
    simp only [Option.none_or, Option.map_eq_some_iff, reduceCtorEq, iff_false, not_exists, not_and]
    exact fun ps _ => (hasSign_sum ps).defined

theorem seconds_int (i : ℤ) :
    (∃ x, ofInt? i = some x ∧ seconds (.int i) = .ok x) ∨
      ofInt? i = none ∧ seconds (.int i) = .error (.abort .hugeNumber) := by
  unfold seconds
  dsimp only
  cases hi : ofInt? i with
  | some x => exact Or.inl ⟨x, rfl, rfl⟩
  | none => exact Or.inr ⟨rfl, rfl⟩

theorem secondsOfShown_eq_nan_iff {t? : Option RawText} :
    secondsOfShown t? = .ok .nan ↔ ∃ s, t? = some (.plain s) ∧ NamesUndefined (strip s).toList := by
  cases t? with
  | none => simp [secondsOfShown]
  | some t =>
    cases t with
    | broken b => simp [secondsOfShown]
    | plain s =>
      simp only [secondsOfShown, Option.some.injEq, RawText.plain.injEq, exists_eq_left',
        ← secondsOfText?_eq_nan_iff]
      cases secondsOfText? (strip s) <;> simp

theorem secondsOfShown_ne_abort (t? : Option RawText) : secondsOfShown t? ≠ .error (.abort a) := by
  cases t? with
  | none => simp [secondsOfShown]
  | some t =>
    cases t with
    | broken b => simp [secondsOfShown]
    | plain s =>
      simp only [secondsOfShown]
      cases secondsOfText? (strip s) <;> simp

/-- A value is read as the undefined number only where it is that or names it. -/
theorem seconds_eq_nan_iff : seconds v = .ok .nan ↔ IsUndefined v := by
  cases v with
  | bool b => simp [seconds, IsUndefined]
  | float x => simp [seconds, IsUndefined]
  | brokenText codes => simp [seconds, IsUndefined]
  | int i =>
    simp only [IsUndefined, iff_false]
    obtain ⟨x, hx, hi⟩ | ⟨-, hi⟩ := seconds_int i
    · rw [hi]
      simpa using ofInt?_defined hx
    · simp [hi]
  | _ =>
    simp only [seconds, IsUndefined]
    exact secondsOfShown_eq_nan_iff

/-- The work ends only for an integer that is too large. -/
theorem seconds_eq_abort_iff : seconds v = .error (.abort a) ↔ IsHuge v ∧ a = .hugeNumber := by
  cases v with
  | int i =>
    have hhuge : IsHuge (.int i) ↔ ofInt? i = none := by simp [IsHuge, ofInt?_eq_none_iff]
    rw [hhuge]
    obtain ⟨x, hx, hi⟩ | ⟨hx, hi⟩ := seconds_int i
    · simp [hi, hx]
    · simp [hi, hx, eq_comm]
  | bool b => simp [seconds, IsHuge]
  | float x => simp [seconds, IsHuge]
  | brokenText codes => simp [seconds, IsHuge]
  | _ =>
    simp only [seconds]
    exact iff_of_false (secondsOfShown_ne_abort _) (by simp [IsHuge])

/-! ## Durations -/

theorem ofValue_eq_ok_iff : ofValue v = .ok x ↔ seconds v = .ok x ∧ x.isAtMostZero = false := by
  unfold ofValue
  rw [bind_eq_ok]
  constructor
  · rintro ⟨y, hy, h⟩
    split at h
    · cases h
    · next hpositive =>
      cases h
      exact ⟨hy, by simpa using hpositive⟩
  · rintro ⟨hx, hpositive⟩
    exact ⟨x, hx, by simp [hpositive, pure, Except.pure]⟩

theorem ofValue_eq_abort_iff : ofValue v = .error (.abort a) ↔ IsHuge v ∧ a = .hugeNumber := by
  rw [← seconds_eq_abort_iff]
  unfold ofValue
  cases seconds v with
  | error stop => simp [bind, Except.bind]
  | ok x =>
    refine iff_of_false ?_ (by simp)
    intro h
    change (if x.isAtMostZero = true then _ else _) = _ at h
    split at h <;> cases h

theorem ofValue_eq_nan_iff : ofValue v = .ok .nan ↔ IsUndefined v := by
  rw [ofValue_eq_ok_iff, seconds_eq_nan_iff]
  simp [isAtMostZero]

theorem isPositive_or_undefined (h : ofValue v = .ok x) : x.isPositive = true ∨ IsUndefined v := by
  rcases isAtMostZero_eq_false_iff.mp (ofValue_eq_ok_iff.mp h).2 with hpositive | rfl
  · exact Or.inl hpositive
  · exact Or.inr (ofValue_eq_nan_iff.mp h)

/-- A value is read as a positive duration or refused, unless it is of one of the two kinds. -/
theorem ofValue_positive_or_refused_iff (v : Value) :
    ((∃ x, ofValue v = .ok x ∧ x.isPositive = true) ∨ ∃ f, ofValue v = .error (.fault f)) ↔
      ¬ IsHuge v ∧ ¬ IsUndefined v := by
  constructor
  · intro h
    refine ⟨fun hhuge => ?_, fun hundefined => ?_⟩
    · have habort := ofValue_eq_abort_iff.mpr ⟨hhuge, rfl⟩
      obtain ⟨x, hx, -⟩ | ⟨f, hf⟩ := h
      · cases hx.symm.trans habort
      · cases hf.symm.trans habort
    · have hnan := ofValue_eq_nan_iff.mpr hundefined
      obtain ⟨x, hx, hpositive⟩ | ⟨f, hf⟩ := h
      · cases hx.symm.trans hnan
        cases hpositive
      · cases hf.symm.trans hnan
  · rintro ⟨hhuge, hundefined⟩
    cases hv : ofValue v with
    | ok x => exact Or.inl ⟨x, rfl, (isPositive_or_undefined hv).resolve_right hundefined⟩
    | error stop =>
      cases stop with
      | fault f => exact Or.inr ⟨f, rfl⟩
      | abort a => exact (hhuge (ofValue_eq_abort_iff.mp hv).1).elim

end CeilingGate.Duration
