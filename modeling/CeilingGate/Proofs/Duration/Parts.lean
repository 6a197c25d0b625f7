import CeilingGate.Duration
import CeilingGate.Proofs.Decimal.Numeral

/-! The texts of durations: rows of parts, each of digits, perhaps a point and more digits, and a unit. No
other text is read as one, and no text can be taken apart in two ways. -/
namespace CeilingGate

namespace Numeral

open CeilingGate.Text

variable {w t : List Char} {ds : List ℕ}

theorem isDigits_of_all (h : ∀ c ∈ w, isDecimalDigit c = true) :
    IsDigits w (w.filterMap digitValue?) := by
  induction w with
  | nil => rfl
  | cons c w ih =>
    obtain ⟨d, hd⟩ := Option.isSome_iff_exists.mp (h c (by simp))
    have hw : w.map digitValue? = (w.filterMap digitValue?).map some := ih fun c hc => h c (by simp [hc])
    simp [IsDigits, hd, hw]

theorem IsDigits.all (h : IsDigits w ds) : ∀ c ∈ w, isDecimalDigit c = true :=
  fun c hc => Option.isSome_iff_ne_none.mpr (h.mem c hc)

theorem IsDigits.eq_filterMap (h : IsDigits w ds) : w.filterMap digitValue? = ds := by
  have hvalues : (w.map digitValue?).filterMap id = (ds.map some).filterMap id := congrArg _ h
  simpa [List.filterMap_map] using hvalues

/-- Digits are taken up to where none goes on. -/
theorem takeWhile_digits (hw : ∀ c ∈ w, isDecimalDigit c = true) (ht : EndsDigits t) :
    (w ++ t).takeWhile isDecimalDigit = w := by
  induction w with
  | nil =>
    cases t with
    | nil => rfl
    | cons c t => simp [isDecimalDigit, ht c rfl]
  | cons c w ih => simp [hw c (by simp), ih fun c hc => hw c (by simp [hc])]

end Numeral

namespace Duration

open CeilingGate.Text CeilingGate.Numeral

variable {cs rest rest' : List Char} {ds : List ℕ} {p : Part} {ps : List Part} {u : TimeUnit}

def TimeUnit.letters : TimeUnit → List Char
  | .millisecond => ['m', 's']
  | .second => ['s']
  | .minute => ['m']
  | .hour => ['h']

/-- A part as it is written, in the digits of any script. Without digits behind the point there is no
point. -/
structure Written where
  whole : List Char
  fraction : List Char
  unit : TimeUnit
  whole_ne : whole ≠ []
  whole_digits : ∀ c ∈ whole, isDecimalDigit c = true
  fraction_digits : ∀ c ∈ fraction, isDecimalDigit c = true

/-- Digits with their point. -/
def pointed (fraction : List Char) : List Char :=
  if fraction.isEmpty then [] else '.' :: fraction

namespace Written

def chars (w : Written) : List Char := w.whole ++ (pointed w.fraction ++ w.unit.letters)

/-- What a part says. -/
def part (w : Written) : Part :=
  ⟨w.whole.filterMap digitValue?, w.fraction.filterMap digitValue?, w.unit⟩

end Written

/-- The text of a row of parts. -/
def charsOf (ws : List Written) : List Char := ws.flatMap Written.chars

/-! ## One part -/

/-- Nothing follows, or what starts with a digit. -/
def StartsDigit (cs : List Char) : Prop := ∀ c ∈ cs.head?, isDecimalDigit c = true

theorem StartsDigit.ne (h : StartsDigit cs) {c : Char} (hc : isDecimalDigit c = false)
    {tail : List Char} : cs ≠ c :: tail := by
  rintro rfl
  exact absurd (h c rfl) (by simp [hc])

theorem endsDigits_letters (u : TimeUnit) (rest : List Char) : EndsDigits (u.letters ++ rest) := by
  intro c hc
  cases u <;> obtain rfl := Option.some.inj hc <;> decide

theorem endsDigits_pointed (f : List Char) (u : TimeUnit) (rest : List Char) :
    EndsDigits (pointed f ++ (u.letters ++ rest)) := by
  unfold pointed
  split
  · exact endsDigits_letters u rest
  · rintro c ⟨⟩
    decide

theorem splitUnit?_letters (u : TimeUnit) (h : StartsDigit rest) :
    splitUnit? (u.letters ++ rest) = some (u, rest) := by
  cases u with
  | millisecond => rfl
  | second => rfl
  | hour => rfl
  | minute =>
    -- an `s` behind the `m` would make it another unit
    have hs : ∀ tail, rest ≠ 's' :: tail := fun tail => h.ne (by decide)
    change splitUnit? ('m' :: rest) = _
    unfold splitUnit?
    split
    · next heq => exact absurd (List.cons.inj heq).2 (hs _)
    · next heq => cases heq
    · next heq => rw [(List.cons.inj heq).2]
    · next heq => cases heq
    · next hno _ => exact absurd rfl (hno rest)

theorem splitUnit?_spec (h : splitUnit? cs = some (u, rest)) : cs = u.letters ++ rest := by
  unfold splitUnit? at h
  split at h <;> cases h <;> rfl

theorem splitPoint_pointed {f : List Char} (hf : ∀ c ∈ f, isDecimalDigit c = true) (u : TimeUnit)
    (rest : List Char) :
    splitPoint (pointed f ++ (u.letters ++ rest)) = (f.filterMap digitValue?, u.letters ++ rest) := by
  have hdigits := splitDigits_append (isDigits_of_all hf) (endsDigits_letters u rest)
  cases f with
  | nil => cases u <;> rfl
  | cons c f =>
    obtain ⟨d, hd⟩ := Option.isSome_iff_exists.mp (hf c (by simp))
    change splitPoint ('.' :: (c :: f ++ (u.letters ++ rest))) = _
    rw [List.filterMap_cons_some hd] at hdigits ⊢
    simp only [splitPoint, hdigits]

theorem splitPoint_spec (cs : List Char) :
    ∃ f, cs = pointed f ++ (splitPoint cs).2 ∧ (∀ c ∈ f, isDecimalDigit c = true) ∧
      f.filterMap digitValue? = (splitPoint cs).1 := by
  unfold splitPoint
  split
  · next rest =>
    obtain ⟨f, hf, hdigits⟩ := splitDigits_spec rest
    split
    · exact ⟨[], rfl, by simp, rfl⟩
    · next ds tail hnil hsplit =>
      rw [hsplit] at hf hdigits
      refine ⟨f, ?_, hdigits.all, hdigits.eq_filterMap⟩
      have hne : f ≠ [] := fun hf => hnil (hdigits.eq_nil_iff.mp hf)
      simp only [pointed, List.isEmpty_iff, hne, if_false, List.cons_append, hf]
  · exact ⟨[], rfl, by simp, rfl⟩

theorem splitPart?_chars (w : Written) (h : StartsDigit rest) :
    splitPart? (w.chars ++ rest) = some (w.part, rest) := by
  have hwhole := splitDigits_append (isDigits_of_all w.whole_digits)
    (endsDigits_pointed w.fraction w.unit rest)
  have hne : w.whole.filterMap digitValue? ≠ [] :=
    mt (isDigits_of_all w.whole_digits).eq_nil_iff.mpr w.whole_ne
  obtain ⟨d, ds, hds⟩ := List.exists_cons_of_ne_nil hne
  rw [hds] at hwhole
  unfold splitPart? Written.chars Written.part
  rw [List.append_assoc, List.append_assoc, hwhole]
  simp only [splitPoint_pointed w.fraction_digits, splitUnit?_letters w.unit h, hds]
  rfl

theorem splitPart?_spec (h : splitPart? cs = some (p, rest)) :
    ∃ w : Written, cs = w.chars ++ rest ∧ w.part = p := by
  obtain ⟨whole, hwhole, hdigits⟩ := splitDigits_spec cs
  unfold splitPart? at h
  split at h
  · cases h
  · next ds after hnil hsplit =>
    rw [hsplit] at hwhole hdigits
    obtain ⟨f, hf, hfraction, hvalues⟩ := splitPoint_spec after
    obtain ⟨⟨u, tail⟩, hu, h⟩ := Option.map_eq_some_iff.mp h
    cases h
    have hne : whole ≠ [] := fun hw => hnil (hdigits.eq_nil_iff.mp hw)
    refine ⟨⟨whole, f, u, hne, hdigits.all, hfraction⟩, ?_, ?_⟩
    · rw [hwhole, hf, splitUnit?_spec hu]
      simp [Written.chars]
    · simp [Written.part, hdigits.eq_filterMap, hvalues]

/-! ## Rows of parts -/

theorem Written.startsDigit (w : Written) (cs : List Char) : StartsDigit (w.chars ++ cs) := by
  obtain ⟨c, tail, hw⟩ := List.exists_cons_of_ne_nil w.whole_ne
  intro c' hc'
  simp only [Written.chars, hw, List.cons_append, List.head?_cons, Option.mem_some_iff] at hc'
  exact hc' ▸ w.whole_digits c (by simp [hw])

theorem startsDigit_charsOf (ws : List Written) : StartsDigit (charsOf ws) := by
  cases ws with
  | nil => simp [StartsDigit, charsOf]
  | cons w ws => exact w.startsDigit _

theorem charsOf_ne_nil (w : Written) (ws : List Written) : charsOf (w :: ws) ≠ [] := by
  simp [charsOf, Written.chars, w.whole_ne]

theorem collectParts_of_splitPart? {p : Part} {rest : List Char} (h : splitPart? cs = some (p, rest)) :
    collectParts cs = (p :: (collectParts rest).1, (collectParts rest).2) := by
  rw [collectParts]
  split
  · next p' rest' hfirst =>
    rw [firstPart?_eq_nil_iff, h] at hfirst
    cases hfirst
    rfl
  · next hfirst => exact absurd (firstPart?_eq_nil_iff.mpr h) (hfirst p rest)

theorem collectParts_of_splitPart?_none (h : splitPart? cs = none) : collectParts cs = ([], cs) := by
  rw [collectParts]
  split
  · next p' rest' hfirst =>
    rw [firstPart?_eq_nil_iff, h] at hfirst
    cases hfirst
  · rfl

/-- Collecting parts while each begins where the last one ends is reading part by part. -/
theorem parts?_eq (cs : List Char) :
    parts? cs = match splitPart? cs with
      | none => none
      | some (p, []) => some [p]
      | some (p, c :: rest) => (parts? (c :: rest)).map (p :: ·) := by
  unfold parts?
  cases hsplit : splitPart? cs with
  | none => rw [collectParts_of_splitPart?_none hsplit]
  | some found =>
    obtain ⟨p, rest⟩ := found
    rw [collectParts_of_splitPart? hsplit]
    cases rest with
    | nil => rw [collectParts_of_splitPart?_none rfl]
    | cons c rest =>
      cases hnext : splitPart? (c :: rest) with
      | none => simp [collectParts_of_splitPart?_none hnext]
      | some next =>
        simp only [collectParts_of_splitPart? hnext]
        cases (collectParts next.2).2 <;> rfl

/-- A row of parts is read part by part, each with its own unit. -/
theorem parts?_charsOf {ws : List Written} (h : ws ≠ []) :
    parts? (charsOf ws) = some (ws.map Written.part) := by
  induction ws with
  | nil => exact (h rfl).elim
  | cons w ws ih =>
    have hsplit : splitPart? (charsOf (w :: ws)) = some (w.part, charsOf ws) :=
      splitPart?_chars w (startsDigit_charsOf ws)
    rw [parts?_eq, hsplit]
    cases ws with
    | nil => rfl
    | cons w' ws =>
      have hrest := ih (by simp)
      obtain ⟨c, tail, htail⟩ := List.exists_cons_of_ne_nil (charsOf_ne_nil w' ws)
      rw [htail] at hrest ⊢
      simp [hrest]

/-- What is read as parts is a row of parts. -/
theorem parts?_spec (h : parts? cs = some ps) :
    ∃ ws : List Written, ws ≠ [] ∧ charsOf ws = cs ∧ ws.map Written.part = ps := by
  induction hlength : cs.length using Nat.strongRecOn generalizing cs ps with
  | ind n ih =>
    rw [parts?_eq] at h
    split at h
    · cases h
    · next p hsplit =>
      cases h
      obtain ⟨w, hw, hpart⟩ := splitPart?_spec hsplit
      exact ⟨[w], by simp, by simpa [charsOf] using hw.symm, by simp [hpart]⟩
    · next p c rest hsplit =>
      obtain ⟨more, hmore, rfl⟩ := Option.map_eq_some_iff.mp h
      obtain ⟨w, hw, hpart⟩ := splitPart?_spec hsplit
      obtain ⟨ws, -, hws, hparts⟩ := ih _ (hlength ▸ splitPart?_length hsplit) hmore rfl
      refine ⟨w :: ws, by simp, ?_, by simp [hpart, hparts]⟩
      rw [hw, ← hws]
      rfl

/-! ## There is one way -/

theorem pointed_inj {f f' : List Char} (h : pointed f = pointed f') : f = f' := by
  unfold pointed at h
  split at h <;> split at h <;> simp_all

theorem Written.takeWhile_chars (w : Written) : w.chars.takeWhile isDecimalDigit = w.whole := by
  have hends := endsDigits_pointed w.fraction w.unit []
  rw [List.append_nil] at hends
  exact takeWhile_digits w.whole_digits hends

theorem Written.eq_of_append {w w' : Written} (hr : StartsDigit rest) (hr' : StartsDigit rest')
    (h : w.chars ++ rest = w'.chars ++ rest') : w = w' ∧ rest = rest' := by
  have hsplit : some (w.part, rest) = some (w'.part, rest') := by
    rw [← splitPart?_chars w hr, h, splitPart?_chars w' hr']
  obtain ⟨hpart, rfl⟩ := Prod.mk.inj (Option.some.inj hsplit)
  have hchars : w.chars = w'.chars := List.append_cancel_right h
  have hwhole : w.whole = w'.whole := by rw [← w.takeWhile_chars, hchars, w'.takeWhile_chars]
  have hunit : w.unit = w'.unit := congrArg Part.unit hpart
  have hfraction : w.fraction = w'.fraction := by
    unfold Written.chars at hchars
    rw [hwhole, hunit] at hchars
    exact pointed_inj (List.append_cancel_right (List.append_cancel_left hchars))
  refine ⟨?_, rfl⟩
  cases w
  cases w'
  cases hwhole
  cases hfraction
  cases hunit
  rfl

/-- No text is a row of parts in two ways. -/
theorem charsOf_inj {ws ws' : List Written} (h : charsOf ws = charsOf ws') : ws = ws' := by
  induction ws generalizing ws' with
  | nil =>
    cases ws' with
    | nil => rfl
    | cons w' ws' => exact (charsOf_ne_nil w' ws' h.symm).elim
  | cons w ws ih =>
    cases ws' with
    | nil => exact (charsOf_ne_nil w ws h).elim
    | cons w' ws' =>
      obtain ⟨rfl, hrest⟩ :=
        Written.eq_of_append (startsDigit_charsOf ws) (startsDigit_charsOf ws') h
      rw [ih hrest]

/-! ## Texts of durations -/

theorem secondsOfText?_eq {s : String} (h : Binary64.parse? s.toList = none) :
    secondsOfText? s = (parts? s.toList).map sum := by
  rw [secondsOfText?, h, Option.none_or]

/-- A text is refused as no duration, or it is read and may still be too small. -/
theorem ofValue_text_cases (s : String) :
    (secondsOfText? (strip s) = none ∧
        ofValue (.text s) = .error (.fault (.unreadable (quoted (strip s))))) ∨
      ∃ x, secondsOfText? (strip s) = some x ∧ seconds (.text s) = .ok x ∧
        ∀ shown, ofValue (.text s) ≠ .error (.fault (.unreadable shown)) := by
  cases hx : secondsOfText? (strip s) with
  | none =>
    have hseconds : seconds (.text s) = .error (.fault (.unreadable (quoted (strip s)))) := by
      simp only [seconds, Value.text?, secondsOfShown, hx]
    refine Or.inl ⟨rfl, ?_⟩
    unfold ofValue
    rw [hseconds]
    rfl
  | some x =>
    have hseconds : seconds (.text s) = .ok x := by
      simp only [seconds, Value.text?, secondsOfShown, hx]
    refine Or.inr ⟨x, rfl, hseconds, fun shown => ?_⟩
    unfold ofValue
    rw [hseconds]
    change (if x.isAtMostZero = true then _ else _) ≠ _
    split <;> simp [throw, throwThe, MonadExceptOf.throw, pure, Except.pure]

theorem ofValue_brokenText (codes : List ℕ) :
    ofValue (.brokenText codes) =
      .error (.fault (.unreadable (quotedCodes (RawText.stripCodes codes)))) := by
  unfold ofValue seconds
  rfl

/-- A text that is no number by itself is read exactly if it is a row of parts. There is one such row, and
each part of it counts with its own unit. Code points that are no characters are in no duration. -/
theorem ofValue_text_readable_iff (s : String) (hs : Binary64.parse? (strip s).toList = none) :
    ((∀ shown, ofValue (.text s) ≠ .error (.fault (.unreadable shown))) ↔
      ∃ ws : List Written, ws ≠ [] ∧ charsOf ws = (strip s).toList) ∧
    (∀ ws : List Written, ws ≠ [] → charsOf ws = (strip s).toList →
      (∀ ws', charsOf ws' = (strip s).toList → ws' = ws) ∧
        seconds (.text s) = .ok (sum (ws.map Written.part))) ∧
    ∀ codes, ∃ shown, ofValue (.brokenText codes) = .error (.fault (.unreadable shown)) := by
  have hparts := secondsOfText?_eq hs
  refine ⟨⟨fun h => ?_, ?_⟩, ?_, fun codes => ⟨_, ofValue_brokenText codes⟩⟩
  · obtain ⟨-, hrefused⟩ | ⟨x, hx, -⟩ := ofValue_text_cases s
    · exact (h _ hrefused).elim
    · rw [hparts] at hx
      obtain ⟨ps, hps, -⟩ := Option.map_eq_some_iff.mp hx
      obtain ⟨ws, hne, hws, -⟩ := parts?_spec hps
      exact ⟨ws, hne, hws⟩
  · rintro ⟨ws, hne, hws⟩
    obtain ⟨hnone, -⟩ | ⟨x, -, -, hread⟩ := ofValue_text_cases s
    · rw [hparts, ← hws, parts?_charsOf hne] at hnone
      cases hnone
    · exact hread
  · intro ws hne hws
    refine ⟨fun ws' hws' => charsOf_inj (hws'.trans hws.symm), ?_⟩
    rw [← hws, parts?_charsOf hne] at hparts
    obtain ⟨hnone, -⟩ | ⟨x, hx, hseconds, -⟩ := ofValue_text_cases s
    · rw [hparts] at hnone
      cases hnone
    · rw [hparts] at hx
      cases hx
      exact hseconds

/-- Hours, minutes and thousandths of seconds; the last unit is neither minutes nor seconds. -/
def hoursMinutesMillis : List Written :=
  [⟨['1'], [], .hour, by simp, List.all_eq_true.mp (by decide), by simp⟩,
    ⟨['3', '0'], ['5'], .minute, by simp, List.all_eq_true.mp (by decide),
      List.all_eq_true.mp (by decide)⟩,
    ⟨['2', '5', '0'], [], .millisecond, by simp, List.all_eq_true.mp (by decide), by simp⟩]

theorem ofValue_hoursMinutesMillis :
    Binary64.parse? (strip " 1h30.5m250ms").toList = none ∧
      seconds (.text " 1h30.5m250ms") =
        .ok (sum [⟨[1], [], .hour⟩, ⟨[3, 0], [5], .minute⟩, ⟨[2, 5, 0], [], .millisecond⟩]) ∧
      ∀ ws, charsOf ws = (strip " 1h30.5m250ms").toList → ws = hoursMinutesMillis := by
  have hs : Binary64.parse? (strip " 1h30.5m250ms").toList = none := by decide +kernel
  have hread := (ofValue_text_readable_iff " 1h30.5m250ms" hs).2.1 hoursMinutesMillis
    (by simp [hoursMinutesMillis]) (by decide +kernel)
  exact ⟨hs, hread.2, hread.1⟩

end Duration

end CeilingGate
