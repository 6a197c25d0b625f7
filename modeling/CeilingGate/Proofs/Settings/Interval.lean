import CeilingGate.Proofs.Duration.Positive
import CeilingGate.Proofs.Validation.Checked
import CeilingGate.Settings.Basic

/-! The interval of accepted settings: the default, or the duration that was given, which is above zero unless
it is the undefined number. And what ends the reading of settings: an interval that no double is near, or a
word for the log that is refused but cannot be repeated. -/
namespace CeilingGate.Settings

open CeilingGate.Validation CeilingGate.Duration

variable {α : Type} {entries : Entries} {names : List String} {v : Value} {x : Binary64} {a : Abort}
  {s : Settings}

/-- What is given for the interval. -/
def givenInterval? (entries : Entries) : Option Value :=
  (named? entries ["refresh_interval"]).map (·.2)

theorem defaultInterval_isPositive : defaultInterval.isPositive = true := by decide +kernel

theorem readInterval_eq_abort_iff : readInterval v = .error a ↔ IsHuge v ∧ a = .hugeNumber := by
  rw [← ofValue_eq_abort_iff]
  unfold readInterval
  cases ofValue v with
  | ok x => simp
  | error stop => cases stop <;> simp

theorem readInterval_eq_ok_iff : readInterval v = .ok (.ok x) ↔ ofValue v = .ok x := by
  unfold readInterval
  cases ofValue v with
  | ok x => simp
  | error stop => cases stop <;> simp [Checked.fail]

theorem intervalField_eq_abort_iff :
    intervalField entries = .error a ↔
      a = .hugeNumber ∧ ∃ v, givenInterval? entries = some v ∧ IsHuge v := by
  unfold intervalField givenInterval?
  cases named? entries ["refresh_interval"] with
  | none => simp
  | some e =>
    dsimp only
    simp only [Option.map_some, Option.some.injEq, exists_eq_left']
    rw [and_comm, ← readInterval_eq_abort_iff]
    cases readInterval e.2 <;> simp [Except.map]

theorem intervalField_answers_iff :
    (∃ c, intervalField entries = .ok c) ↔
      ¬ ∃ v, givenInterval? entries = some v ∧ IsHuge v := by
  cases hfield : intervalField entries with
  | error a => simpa using (intervalField_eq_abort_iff.mp hfield).2
  | ok c =>
    refine iff_of_true ⟨c, rfl⟩ fun hhuge => ?_
    cases hfield.symm.trans (intervalField_eq_abort_iff.mpr ⟨rfl, hhuge⟩)

theorem intervalField_eq_ok (h : intervalField entries = .ok (.ok x)) :
    (givenInterval? entries = none ∧ x = defaultInterval) ∨
      ∃ v, givenInterval? entries = some v ∧ ofValue v = .ok x := by
  unfold intervalField at h
  unfold givenInterval?
  split at h
  · next hnone =>
    cases h
    exact Or.inl ⟨by rw [hnone]; rfl, rfl⟩
  · next n v hsome =>
    obtain ⟨c, hc, hx⟩ := map_eq_ok.mp h
    rw [under_eq_ok] at hx
    exact Or.inr ⟨v, by rw [hsome]; rfl, readInterval_eq_ok_iff.mp (hx ▸ hc)⟩

/-! ## Words -/

/-- A word is given, and the complaint about it would be no valid text. -/
def Untellable (entries : Entries) (name complaint : String) (b : BrokenText) : Prop :=
  ∃ e t, named? entries [name] = some e ∧ readText e.2 = .ok t ∧
    complaint ++ ": " ++ t.lower = .broken b

/-- What is said of the first word for the log that is refused and cannot be repeated. -/
def FirstUntellable (entries : Entries) (b : BrokenText) : Prop :=
  Untellable entries "log_level" "unsupported log level" b ∨
    (∀ b', ¬ Untellable entries "log_level" "unsupported log level" b') ∧
      Untellable entries "log_format" "unsupported log format" b

theorem abort?_readText_bind {f : RawText → Checked α} :
    abort? (readText v >>= f) = some a ↔ ∃ t, readText v = .ok t ∧ abort? (f t) = some a := by
  cases hv : readText v with
  | ok t => simp [bind, Except.bind]
  | error issues =>
    have hnone : abort? (readText v) = none := abort?_readText v
    rw [hv] at hnone
    exact iff_of_false (fun h => by cases hnone.symm.trans h) (by simp)

/-- Reading a word comes to an abort exactly if the complaint about it cannot be told. -/
theorem abort?_readWord {ofName? : String → Option α} {complaint : String} :
    abort? (readWord ofName? complaint v) = some a ↔
      ∃ t b, readText v = .ok t ∧ complaint ++ ": " ++ t.lower = .broken b ∧ a = .unencodable b := by
  unfold readWord
  rw [abort?_readText_bind]
  refine exists_congr fun t => ?_
  rw [exists_and_left]
  refine and_congr_right fun _ => ?_
  dsimp only
  cases t.lower with
  | plain word =>
    cases hword : meaning? ofName? (.plain word) with
    | some x => simp [abort?, pure, Except.pure]
    | none => simp [abort?_fail, Cause.abort?]
  | broken b =>
    obtain ⟨b', hb'⟩ := RawText.append_broken (complaint ++ ": ") (t := .broken b) b.hasHalf
    simp only [meaning?, abort?_fail, hb', Cause.abort?, Option.some.injEq, RawText.broken.injEq]
    constructor
    · exact fun h => ⟨b', rfl, h.symm⟩
    · rintro ⟨_, rfl, rfl⟩
      rfl

theorem abort?_wordField {ofName? : String → Option α} {complaint name : String} {absent : α} :
    abort? (field entries [name] absent (readWord ofName? complaint)) = some a ↔
      ∃ b, Untellable entries name complaint b ∧ a = .unencodable b := by
  rw [abort?_field, Option.bind_eq_some_iff]
  constructor
  · rintro ⟨e, he, h⟩
    obtain ⟨t, b, ht, hb, ha⟩ := abort?_readWord.mp h
    exact ⟨b, ⟨e, t, he, ht, hb⟩, ha⟩
  · rintro ⟨b, ⟨e, t, he, ht, hb⟩, ha⟩
    exact ⟨e, he, abort?_readWord.mpr ⟨t, b, ht, hb, ha⟩⟩

theorem abort?_readAddress (v : Value) : abort? (readAddress v) = none := by
  refine Option.eq_none_iff_forall_ne_some.mpr fun a h => ?_
  obtain ⟨t, -, h⟩ := abort?_readText_bind.mp h
  cases hread : Address.ofText t <;> rw [hread] at h <;> cases h

theorem abort?_readOptional {read : Value → Checked α} (h : ∀ v, abort? (read v) = none) (v : Value) :
    abort? (readOptional read v) = none := by
  cases v with
  | null => rfl
  | _ => exact (abort?_map).trans (h _)

theorem abort?_field_eq_none {read : Value → Checked α} {absent : α} (h : ∀ v, abort? (read v) = none) :
    abort? (field entries names absent read) = none := by
  simp [abort?_field, h]

theorem abort?_unexpected (entries : Entries) : abort? (unexpected entries) = none := by
  unfold unexpected
  dsimp only
  split
  · rfl
  · simp only [abort?, firstAbort?, List.findSome?_eq_none_iff, List.mem_map]
    rintro _ ⟨e, -, rfl⟩
    rfl

theorem abort?_intervalField {c : Checked Binary64} (h : intervalField entries = .ok c) :
    abort? c = none := by
  unfold intervalField at h
  split at h
  · cases h
    rfl
  · obtain ⟨c', hread, rfl⟩ := map_eq_ok.mp h
    rw [abort?_under]
    unfold readInterval at hread
    split at hread <;> cases hread <;> rfl

theorem settle_eq_error_iff {c : Checked α} : c.settle = .error a ↔ abort? c = some a := by
  cases c with
  | ok x => simp [Checked.settle, abort?]
  | error issues =>
    simp only [Checked.settle, abort?]
    cases firstAbort? issues <;> simp

theorem settle_eq_ok {c : Checked α} {x : α} (h : c.settle = .ok (.ok x)) : c = .ok x := by
  cases c with
  | ok y =>
    cases h
    rfl
  | error issues =>
    simp only [Checked.settle] at h
    split at h <;> cases h

/-- Settings are read until the first abort: of the interval, else of the two words for the log. -/
theorem ofEntries_eq_abort_iff :
    ofEntries entries = .error a ↔ intervalField entries = .error a ∨
      (∃ c, intervalField entries = .ok c) ∧
        (abort? (field entries ["log_level"] .info readVerbosity)).or
          (abort? (field entries ["log_format"] .text readFormat)) = some a := by
  unfold ofEntries
  cases hinterval : intervalField entries with
  | error b => simp [bind, Except.bind]
  | ok c =>
    have hc : abort? c = none := abort?_intervalField hinterval
    simp only [bind, Except.bind, reduceCtorEq, false_or, Except.ok.injEq, exists_eq', true_and]
    rw [settle_eq_error_iff, abort?_apply, abort?_map, abort?_unexpected, Option.or_none]
    simp only [abort?_apply, abort?_map, hc, abort?_field_eq_none abort?_readText,
      abort?_field_eq_none abort?_readAddress,
      abort?_field_eq_none (abort?_readOptional abort?_readText), Option.none_or]

/-- Of all the fields that accepted settings were read from, the second is the interval. -/
theorem ofEntries_interval (h : ofEntries entries = .ok (.ok s)) :
    intervalField entries = .ok (.ok s.refreshInterval) := by
  obtain ⟨interval, hinterval, h⟩ := bind_eq_ok.mp h
  obtain ⟨_, _, hsettings, -, rfl⟩ := apply_eq_ok.mp (settle_eq_ok h)
  obtain ⟨_, hformat, rfl⟩ := checked_map_eq_ok.mp hsettings
  obtain ⟨_, _, hverbosity, -, rfl⟩ := apply_eq_ok.mp hformat
  obtain ⟨_, _, hops, -, rfl⟩ := apply_eq_ok.mp hverbosity
  obtain ⟨_, _, haddress, -, rfl⟩ := apply_eq_ok.mp hops
  obtain ⟨_, _, hkey, -, rfl⟩ := apply_eq_ok.mp haddress
  obtain ⟨_, _, hcert, -, rfl⟩ := apply_eq_ok.mp hkey
  obtain ⟨_, _, hfile, -, rfl⟩ := apply_eq_ok.mp hcert
  obtain ⟨_, x, hconfig, hx, rfl⟩ := apply_eq_ok.mp hfile
  obtain ⟨_, -, rfl⟩ := checked_map_eq_ok.mp hconfig
  rw [hinterval, hx]

theorem firstUntellable_iff :
    (abort? (field entries ["log_level"] .info readVerbosity)).or
        (abort? (field entries ["log_format"] .text readFormat)) = some a ↔
      ∃ b, a = .unencodable b ∧ FirstUntellable entries b := by
  have hnone : abort? (field entries ["log_level"] .info readVerbosity) = none ↔
      ∀ b, ¬ Untellable entries "log_level" "unsupported log level" b := by
    simp only [Option.eq_none_iff_forall_ne_some, readVerbosity, ne_eq, abort?_wordField]
    exact ⟨fun h b hb => h _ ⟨b, hb, rfl⟩, fun h _ ⟨b, hb, _⟩ => h b hb⟩
  rw [Option.or_eq_some_iff, hnone, readVerbosity, readFormat, abort?_wordField, abort?_wordField]
  simp only [FirstUntellable, ← exists_and_left, ← exists_or]
  exact exists_congr fun b => by tauto

/-- A duration, or the interval of settings, is positive or refused. What is neither is an integer that is too
large, which ends the work, or the undefined number, which is accepted. Besides that integer, a word for the
log may end the reading of settings. -/
theorem interval_positive_or_refused (v : Value) (entries : Entries) :
    (((∃ x, ofValue v = .ok x ∧ x.isPositive = true) ∨ ∃ f, ofValue v = .error (.fault f)) ↔
      ¬ IsHuge v ∧ ¬ IsUndefined v) ∧
    (∀ a, ofEntries entries = .error a ↔
      (a = .hugeNumber ∧ ∃ given, givenInterval? entries = some given ∧ IsHuge given) ∨
        (¬ ∃ given, givenInterval? entries = some given ∧ IsHuge given) ∧
          ∃ b, a = .unencodable b ∧ FirstUntellable entries b) ∧
    ∀ s, ofEntries entries = .ok (.ok s) →
      (s.refreshInterval.isPositive = true ↔
        ¬ ∃ given, givenInterval? entries = some given ∧ IsUndefined given) := by
  refine ⟨ofValue_positive_or_refused_iff v, fun a => ?_, fun s hs => ?_⟩
  · rw [ofEntries_eq_abort_iff, intervalField_eq_abort_iff, firstUntellable_iff,
      intervalField_answers_iff]
  · obtain ⟨hnone, hdefault⟩ | ⟨given, hgiven, hx⟩ := intervalField_eq_ok (ofEntries_interval hs)
    · rw [hdefault, hnone]
      simp [defaultInterval_isPositive]
    · simp only [hgiven, Option.some.injEq, exists_eq_left']
      constructor
      · intro hpositive hundefined
        have hnan : s.refreshInterval = .nan :=
          Except.ok.inj (hx.symm.trans (ofValue_eq_nan_iff.mpr hundefined))
        rw [hnan] at hpositive
        cases hpositive
      · exact (isPositive_or_undefined hx).resolve_right

/-- Five minutes given as a text are the default. -/
theorem interval_five_minutes :
    ofEntries [(.text "refresh_interval", .text "5m")] =
        .ok (.ok ⟨"/etc/rra/config.yaml", defaultInterval, none, none, defaultAddress,
          defaultOpsAddress, .info, .text⟩) ∧
      ofValue (.text "5m") = .ok defaultInterval ∧ ¬ IsUndefined (.text "5m") := by
  have hread : ofValue (.text "5m") = .ok defaultInterval := by decide +kernel
  have hall := interval_positive_or_refused (.text "5m") [(.text "refresh_interval", .text "5m")]
  have hplain := hall.1.mp (Or.inl ⟨_, hread, defaultInterval_isPositive⟩)
  exact ⟨by decide +kernel, hread, hplain.2⟩

/-- The name of the undefined number is accepted, also for the interval, and the least integer without a
double is neither read nor refused. -/
theorem interval_accepts_undefined :
    ¬ ((∃ x, ofValue (.text "nan") = .ok x ∧ x.isPositive = true) ∨
        ∃ f, ofValue (.text "nan") = .error (.fault f)) ∧
      ¬ ((∃ x, ofValue (.int Binary64.tooLarge) = .ok x ∧ x.isPositive = true) ∨
        ∃ f, ofValue (.int Binary64.tooLarge) = .error (.fault f)) ∧
      ofEntries [(.text "refresh_interval", .text "nan")] =
        .ok (.ok ⟨"/etc/rra/config.yaml", .nan, none, none, defaultAddress, defaultOpsAddress, .info,
          .text⟩) := by
  have hnan : IsUndefined (.text "nan") :=
    ⟨"nan", rfl, [], "nan".toList, false, by decide +kernel, .none, by decide⟩
  have hhuge : IsHuge (.int Binary64.tooLarge) := ⟨_, rfl, le_rfl⟩
  refine ⟨?_, ?_, by decide +kernel⟩
  · rw [ofValue_positive_or_refused_iff]
    exact fun h => h.2 hnan
  · rw [ofValue_positive_or_refused_iff]
    exact fun h => h.1 hhuge

end CeilingGate.Settings
