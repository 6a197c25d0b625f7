import CeilingGate.Proofs.Json.Fuel

/-! The two limits of the JSON reader. Reading comes to places of a text one after the other. It gives up at
the first collection that stands too deep, or at the first integer that has too many digits. -/
namespace CeilingGate.Json

/-! ## Where reading gives up -/

inductive Part
  | value
  | items
  | entries

/-- A value stands at the start of a text, inside `depth` collections, and leaves the rest. -/
def Reads (d : Dialect) (depth : Nat) (s : List Char) (v : Value) (rest : List Char) : Prop :=
  ∃ n, readValue d n depth s = .ok (v, rest)

/-- The places of a text that reading comes to, and how many collections are around them. What stands
before such a place is well formed and within the limits. -/
inductive ComesTo (d : Dialect) (cs : List Char) : Part → Nat → List Char → Prop
  | start : ComesTo d cs .value 0 (skipSpaces cs)
  | list {depth : Nat} {s : List Char} (h : ComesTo d cs .value depth ('[' :: s))
      (hn : ¬∃ after, skipSpaces s = ']' :: after) (hd : depth < d.depth) :
      ComesTo d cs .items (depth + 1) (skipSpaces s)
  | dict {depth : Nat} {s : List Char} (h : ComesTo d cs .value depth ('\x7b' :: s))
      (hn : ¬∃ after, skipSpaces s = '\x7d' :: after) (hd : depth < d.depth) :
      ComesTo d cs .entries (depth + 1) (skipSpaces s)
  | item {depth : Nat} {s : List Char} (h : ComesTo d cs .items depth s) :
      ComesTo d cs .value depth s
  | nextItem {depth : Nat} {s rest more : List Char} {v : Value} (h : ComesTo d cs .items depth s)
      (hv : Reads d depth s v rest) (hc : skipSpaces rest = ',' :: more) :
      ComesTo d cs .items depth (skipSpaces more)
  | content {depth : Nat} {s rest more : List Char} {key : Value}
      (h : ComesTo d cs .entries depth ('"' :: s)) (hk : readText d s = .ok (key, rest))
      (hc : skipSpaces rest = ':' :: more) : ComesTo d cs .value depth (skipSpaces more)
  | nextEntry {depth : Nat} {s rest more after next : List Char} {key v : Value}
      (h : ComesTo d cs .entries depth ('"' :: s)) (hk : readText d s = .ok (key, rest))
      (hc : skipSpaces rest = ':' :: more) (hv : Reads d depth (skipSpaces more) v after)
      (hc' : skipSpaces after = ',' :: next) : ComesTo d cs .entries depth (skipSpaces next)

/-- A collection with content begins. -/
def Opens (s : List Char) : Prop :=
  (∃ rest, s = '[' :: rest ∧ ¬∃ after, skipSpaces rest = ']' :: after) ∨
    ∃ rest, s = '\x7b' :: rest ∧ ¬∃ after, skipSpaces rest = '\x7d' :: after

/-- Digits that write an integer, and what follows them. -/
structure IsWhole (ds rest : List Char) : Prop where
  digits : ∀ c ∈ ds, c.isDigit = true
  noZero : ∀ more, ds ≠ '0' :: more
  noDigit : ∀ c more, rest = c :: more → c.isDigit = false
  noFraction : ∀ c more, rest = '.' :: c :: more → c.isDigit = false
  noPower : ∀ e after c more, rest = e :: after → e = 'e' ∨ e = 'E' →
    (Numeral.splitSign after).2 = c :: more → c.isDigit = false

/-- Reading a text comes to a collection that is nested too deep, or to an integer of too many digits. -/
inductive GivesUp (d : Dialect) (cs : List Char) : Fault → Prop
  | nested {depth : Nat} {s : List Char} (h : ComesTo d cs .value depth s) (ho : Opens s)
      (hd : d.depth ≤ depth) : GivesUp d cs .tooDeep
  | digits {depth : Nat} {s ds rest : List Char} (h : ComesTo d cs .value depth s)
      (hs : s = ds ++ rest ∨ s = '-' :: (ds ++ rest)) (hw : IsWhole ds rest)
      (hl : d.digits < ds.length) : GivesUp d cs (.tooManyDigits ds.length)

variable {d : Dialect} {n m depth : Nat} {cs s ds rest more after : List Char} {v key : Value}
  {reason : Fault} {negative : Bool}

/-! ## Integers -/

theorem takeDigits_append (hds : ∀ c ∈ ds, c.isDigit = true)
    (hrest : ∀ c more, rest = c :: more → c.isDigit = false) :
    takeDigits (ds ++ rest) = (ds, rest) := by
  have hnone : rest.takeWhile Char.isDigit = [] ∧ rest.dropWhile Char.isDigit = rest := by
    cases rest with
    | nil => exact ⟨rfl, rfl⟩
    | cons c more =>
      have hc := hrest c more rfl
      simp [hc]
  rw [takeDigits, List.span_eq_takeWhile_dropWhile, List.takeWhile_append_of_pos hds,
    List.dropWhile_append_of_pos hds, hnone.1, hnone.2, List.append_nil]

/-- Where digits are taken, no further one follows. -/
theorem of_takeDigits (h : takeDigits cs = (ds, rest)) :
    cs = ds ++ rest ∧ (∀ c ∈ ds, c.isDigit = true) ∧
      ∀ c more, rest = c :: more → c.isDigit = false := by
  rw [takeDigits, List.span_eq_takeWhile_dropWhile] at h
  cases h
  refine ⟨List.takeWhile_append_dropWhile.symm, fun c hc => List.mem_takeWhile_imp hc, ?_⟩
  intro c more hmore
  have hhead := List.head?_dropWhile_not Char.isDigit cs
  rw [hmore] at hhead
  simpa using hhead

theorem takeDigits_fst_eq_nil_iff :
    (takeDigits cs).1 = [] ↔ ∀ c more, cs = c :: more → c.isDigit = false := by
  cases cs with
  | nil => simp [takeDigits, List.span_eq_takeWhile_dropWhile]
  | cons c more => cases hc : c.isDigit <;> simp [takeDigits, List.span_eq_takeWhile_dropWhile, hc]

theorem readFraction_eq_nil_iff :
    (readFraction cs).1 = [] ↔ ∀ c more, cs = '.' :: c :: more → c.isDigit = false := by
  unfold readFraction
  split
  · next tail =>
    have htail := @takeDigits_fst_eq_nil_iff tail
    split
    · next hds =>
      simp only [hds, true_iff] at htail
      simpa using htail
    · next hds =>
      simp only [hds] at htail
      simpa using htail
  · next hdot =>
    simp only [true_iff]
    intro c more he
    exact absurd he (hdot _)

theorem readFraction_eq (h : (readFraction cs).1 = []) : readFraction cs = ([], cs) := by
  unfold readFraction at h ⊢
  split
  · split
    · rfl
    · next hnil hds =>
      simp only [hds] at h
      exact absurd h hnil
  · rfl

theorem readPower_eq_none_iff :
    (readPower cs).1 = none ↔
      ∀ e after c more, cs = e :: after → e = 'e' ∨ e = 'E' →
        (Numeral.splitSign after).2 = c :: more → c.isDigit = false := by
  unfold readPower
  split
  · next e after =>
    have hafter := @takeDigits_fst_eq_nil_iff (Numeral.splitSign after).2
    by_cases he : e = 'e' ∨ e = 'E'
    · rw [if_pos (by simpa using he)]
      split
      next negative unsigned hsign =>
      simp only [hsign] at hafter
      split
      · next hds =>
        simp only [hds, true_iff] at hafter
        simp only [true_iff]
        rintro _ _ c more ⟨⟩ - hmore
        rw [hsign] at hmore
        exact hafter c more hmore
      · next hnil hds =>
        simp only [hds] at hafter
        simp only [reduceCtorEq, false_iff]
        intro h
        have hempty := hafter.mpr fun c more hmore =>
          h e after c more rfl he (by rw [hsign]; exact hmore)
        exact hnil hempty
    · rw [if_neg (by simpa using he)]
      simp only [true_iff]
      rintro _ _ c more ⟨⟩ he'
      exact absurd he' he
  · simp

theorem readNumber_append (hw : IsWhole ds rest) (hl : d.digits < ds.length) :
    readNumber d negative (ds ++ rest) = .error (.tooManyDigits ds.length) := by
  have hfraction := readFraction_eq (readFraction_eq_nil_iff.mpr hw.noFraction)
  have hpower := readPower_eq_none_iff.mpr hw.noPower
  cases hds : ds with
  | nil => simp [hds] at hl
  | cons c more =>
    have hc : c ≠ '0' := fun he => hw.noZero more (by rw [hds, he])
    have hdigits := takeDigits_append hw.digits hw.noDigit
    rw [hds] at hdigits hl
    unfold readNumber
    split
    next whole tail hwhole =>
    split at hwhole
    · next he => exact absurd (List.cons.inj he).1 hc
    · rw [hdigits] at hwhole
      cases hwhole
      rw [List.length_cons] at hl
      simp [hfraction, hpower, hl]

/-- A number is refused for nothing but being an integer of too many digits. -/
theorem readNumber_eq_error (h : readNumber d negative cs = .error reason)
    (hr : reason ≠ .malformed) (hd : 0 < d.digits) :
    ∃ ds rest, cs = ds ++ rest ∧ IsWhole ds rest ∧ d.digits < ds.length ∧
      reason = .tooManyDigits ds.length := by
  unfold readNumber at h
  split at h
  next whole tail hwhole =>
  split at h
  · cases h
    exact absurd rfl hr
  · simp only at h
    split at h
    · next hcond =>
      simp only [Bool.and_eq_true, List.isEmpty_iff, Option.isNone_iff_eq_none] at hcond
      obtain ⟨hfraction, hpower⟩ := hcond
      rw [readFraction_eq hfraction] at hpower
      split at h
      · next hlong =>
        cases h
        split at hwhole
        · cases hwhole
          simp only [List.length_singleton] at hlong
          omega
        · next hzero =>
          obtain ⟨rfl, hds, htail⟩ := of_takeDigits hwhole
          refine ⟨whole, tail, rfl, ⟨hds, ?_, htail, ?_, ?_⟩, hlong, rfl⟩
          · rintro more rfl
            exact hzero (more ++ tail) rfl
          · exact readFraction_eq_nil_iff.mp hfraction
          · exact readPower_eq_none_iff.mp hpower
      · cases h
    · cases h

theorem readText_eq_error (h : readText d cs = .error reason) : reason = .malformed := by
  unfold readText at h
  split at h
  · cases h
    rfl
  · split at h
    · cases h
    · split at h
      · cases h
      · cases h
        rfl

theorem readWord_eq_error {word : String} (h : readWord word v cs = .error reason) :
    reason = .malformed := by
  unfold readWord at h
  split at h
  · cases h
  · cases h
    rfl

theorem readScalar_eq_error (h : readScalar d cs = .error reason) (hr : reason ≠ .malformed)
    (hd : 0 < d.digits) :
    ∃ ds rest, (cs = ds ++ rest ∨ cs = '-' :: (ds ++ rest)) ∧ IsWhole ds rest ∧
      d.digits < ds.length ∧ reason = .tooManyDigits ds.length := by
  unfold readScalar at h
  split at h
  · exact absurd (readText_eq_error h) hr
  · exact absurd (readWord_eq_error h) hr
  · exact absurd (readWord_eq_error h) hr
  · exact absurd (readWord_eq_error h) hr
  · exact absurd (readWord_eq_error h) hr
  · exact absurd (readWord_eq_error h) hr
  · exact absurd (readWord_eq_error h) hr
  · obtain ⟨ds, rest, rfl, hw, hl, he⟩ := readNumber_eq_error h hr hd
    exact ⟨ds, rest, .inr rfl, hw, hl, he⟩
  · obtain ⟨ds, rest, rfl, hw, hl, he⟩ := readNumber_eq_error h hr hd
    exact ⟨ds, rest, .inl rfl, hw, hl, he⟩

/-- Whatever starts with a digit is read as a number. -/
theorem readScalar_of_isDigit {c : Char} (hc : c.isDigit = true) :
    readScalar d (c :: cs) = readNumber d false (c :: cs) ∧
      readScalar d ('-' :: c :: cs) = readNumber d true (c :: cs) := by
  constructor
  · unfold readScalar
    split <;> first
      | rfl
      | (next he =>
          obtain ⟨rfl, _⟩ := List.cons.inj he
          exact absurd hc (by decide))
  · have hword : c ≠ 'I' := by
      rintro rfl
      exact absurd hc (by decide)
    simp [readScalar, hword]

/-! ## Giving up -/

/-- Reading ends for a reason at a place, if there is fuel enough to come to it. -/
def FailsAt (d : Dialect) : Part → Nat → List Char → Fault → Prop
  | .value, depth, s, reason => ∃ n, readValue d n depth s = .error reason
  | .items, depth, s, reason => ∃ n, readItems d n depth s = .error reason
  | .entries, depth, s, reason => ∃ n, readEntries d n depth s = .error reason

theorem isSettled_ok {α : Type} (a : α) : IsSettled (.ok a : Except Fault α) := by
  intro h
  cases h

theorem isSettled_error {α : Type} (h : reason ≠ .malformed) :
    IsSettled (.error reason : Except Fault α) := by
  intro he
  cases he
  exact h rfl

/-- What ends the reading at a place that is come to ends the reading of the text. -/
theorem ComesTo.failsAt {p : Part} (h : ComesTo d cs p depth s) (hr : reason ≠ .malformed)
    (hf : FailsAt d p depth s reason) : FailsAt d .value 0 (skipSpaces cs) reason := by
  induction h with
  | start => exact hf
  | @list depth s _ hn hd ih =>
    obtain ⟨n, hf⟩ := hf
    obtain ⟨after, hafter, -⟩ | ⟨-, ⟨hdeep, -⟩ | ⟨-, hread⟩⟩ := readValue_list d depth s
    · exact absurd ⟨after, hafter⟩ hn
    · omega
    · exact ih ⟨n + 1, by rw [hread, hf]; rfl⟩
  | @dict depth s _ hn hd ih =>
    obtain ⟨n, hf⟩ := hf
    obtain ⟨after, hafter, -⟩ | ⟨-, ⟨hdeep, -⟩ | ⟨-, hread⟩⟩ := readValue_dict d depth s
    · exact absurd ⟨after, hafter⟩ hn
    · omega
    · exact ih ⟨n + 1, by rw [hread, hf]; rfl⟩
  | item _ ih =>
    obtain ⟨n, hf⟩ := hf
    exact ih ⟨n + 1, by rw [readItems_succ, hf]; rfl⟩
  | @nextItem depth s rest more v _ hv hc ih =>
    obtain ⟨n, hf⟩ := hf
    obtain ⟨m, hv⟩ := hv
    have hv' := (readValue_of_le (by rw [hv]; exact isSettled_ok _) (Nat.le_max_right n m)).trans hv
    have hf' := (readItems_of_le (by rw [hf]; exact isSettled_error hr) (Nat.le_max_left n m)).trans hf
    refine ih ⟨max n m + 1, ?_⟩
    rw [readItems_succ, hv']
    simp [readMore, hc, hf', bind, Except.bind]
  | @content depth s rest more key _ hk hc ih =>
    obtain ⟨n, hf⟩ := hf
    refine ih ⟨n + 1, ?_⟩
    rw [readEntries_succ, hk]
    simp [readContent, hc, hf, bind, Except.bind]
  | @nextEntry depth s rest more after next key v _ hk hc hv hc' ih =>
    obtain ⟨n, hf⟩ := hf
    obtain ⟨m, hv⟩ := hv
    have hv' := (readValue_of_le (by rw [hv]; exact isSettled_ok _) (Nat.le_max_right n m)).trans hv
    have hf' :=
      (readEntries_of_le (by rw [hf]; exact isSettled_error hr) (Nat.le_max_left n m)).trans hf
    refine ih ⟨max n m + 1, ?_⟩
    rw [readEntries_succ, hk]
    simp [readContent, hc, hv', readMore, hc', hf', bind, Except.bind]

theorem bind_eq_error {α β : Type} {x : Except Fault α} {f : α → Except Fault β} :
    x >>= f = .error reason ↔ x = .error reason ∨ ∃ a, x = .ok a ∧ f a = .error reason := by
  cases x <;> simp [bind, Except.bind]

theorem readMore_eq_error {α : Type} {close : Char} {a : α}
    {next : List Char → Except Fault (List α × List Char)}
    (h : readMore close next a rest = .error reason) (hr : reason ≠ .malformed) :
    ∃ more, skipSpaces rest = ',' :: more ∧ next (skipSpaces more) = .error reason := by
  unfold readMore at h
  split at h
  · cases h
    exact absurd rfl hr
  · next c more hmore =>
    split at h
    · cases h
    · split at h
      · next hcomma =>
        obtain h | ⟨r, -, h⟩ := bind_eq_error.mp h
        · exact ⟨more, by rw [hmore, hcomma], h⟩
        · cases h
      · cases h
        exact absurd rfl hr

/-- Reading that comes to a place and ends there gives up at that place or at a later one. -/
theorem givesUp_of_fails (hr : reason ≠ .malformed) (hd : 0 < d.digits) (n : Nat) :
    (∀ depth s, ComesTo d cs .value depth s → readValue d n depth s = .error reason →
        GivesUp d cs reason) ∧
      (∀ depth s, ComesTo d cs .items depth s → readItems d n depth s = .error reason →
        GivesUp d cs reason) ∧
      ∀ depth s, ComesTo d cs .entries depth s → readEntries d n depth s = .error reason →
        GivesUp d cs reason := by
  induction n with
  | zero =>
    refine ⟨fun depth s _ h => ?_, fun depth s _ h => ?_, fun depth s _ h => ?_⟩
    · rw [readValue] at h
      cases h
      exact absurd rfl hr
    · rw [readItems] at h
      cases h
      exact absurd rfl hr
    · rw [readEntries] at h
      cases h
      exact absurd rfl hr
  | succ n ih =>
    obtain ⟨hvalue, hitems, hentries⟩ := ih
    refine ⟨fun depth s hs h => ?_, fun depth s hs h => ?_, fun depth s hs h => ?_⟩
    · obtain ⟨tail, rfl⟩ | ⟨tail, rfl⟩ | ⟨hlist, hdict⟩ := opens_cases s
      · obtain ⟨_, -, hread⟩ | ⟨hne, ⟨hdeep, hread⟩ | ⟨hlt, hread⟩⟩ := readValue_list d depth tail
        · cases (hread n).symm.trans h
        · cases (hread n).symm.trans h
          exact .nested hs (.inl ⟨tail, rfl, hne⟩) hdeep
        · obtain h | ⟨_, -, h⟩ := bind_eq_error.mp ((hread n).symm.trans h)
          · exact hitems _ _ (.list hs hne hlt) h
          · cases h
      · obtain ⟨_, -, hread⟩ | ⟨hne, ⟨hdeep, hread⟩ | ⟨hlt, hread⟩⟩ := readValue_dict d depth tail
        · cases (hread n).symm.trans h
        · cases (hread n).symm.trans h
          exact .nested hs (.inr ⟨tail, rfl, hne⟩) hdeep
        · obtain h | ⟨_, -, h⟩ := bind_eq_error.mp ((hread n).symm.trans h)
          · exact hentries _ _ (.dict hs hne hlt) h
          · cases h
      · rw [readValue_scalar hlist hdict] at h
        obtain ⟨ds, rest, hform, hw, hl, rfl⟩ := readScalar_eq_error h hr hd
        exact .digits hs hform hw hl
    · rw [readItems_succ] at h
      obtain h | ⟨⟨v, rest⟩, hv, h⟩ := bind_eq_error.mp h
      · exact hvalue _ _ (.item hs) h
      · obtain ⟨more, hmore, h⟩ := readMore_eq_error h hr
        exact hitems _ _ (.nextItem hs ⟨n, hv⟩ hmore) h
    · by_cases hquote : ∃ tail, s = '"' :: tail
      · obtain ⟨tail, rfl⟩ := hquote
        rw [readEntries_succ] at h
        obtain h | ⟨⟨key, rest⟩, hk, h⟩ := bind_eq_error.mp h
        · exact absurd (readText_eq_error h) hr
        · unfold readContent at h
          split at h
          · next start hstart =>
            obtain h | ⟨⟨v, after⟩, hv, h⟩ := bind_eq_error.mp h
            · exact hvalue _ _ (.content hs hk hstart) h
            · obtain ⟨next, hnext, h⟩ := readMore_eq_error h hr
              exact hentries _ _ (.nextEntry hs hk hstart ⟨n, hv⟩ hnext) h
          · cases h
            exact absurd rfl hr
      · rw [readEntries_of_ne_quote (not_exists.mp hquote)] at h
        cases h
        exact absurd rfl hr

theorem GivesUp.ne_malformed (h : GivesUp d cs reason) : reason ≠ .malformed := by
  cases h <;> simp

theorem GivesUp.failsAt (h : GivesUp d cs reason) :
    FailsAt d .value 0 (skipSpaces cs) reason := by
  have hr := h.ne_malformed
  cases h with
  | @nested depth s h ho hd =>
    refine h.failsAt hr ⟨1, ?_⟩
    obtain ⟨tail, rfl, hne⟩ | ⟨tail, rfl, hne⟩ := ho
    · obtain ⟨after, hafter, -⟩ | ⟨-, ⟨-, hread⟩ | ⟨hlt, -⟩⟩ := readValue_list d depth tail
      · exact absurd ⟨after, hafter⟩ hne
      · exact hread 0
      · omega
    · obtain ⟨after, hafter, -⟩ | ⟨-, ⟨-, hread⟩ | ⟨hlt, -⟩⟩ := readValue_dict d depth tail
      · exact absurd ⟨after, hafter⟩ hne
      · exact hread 0
      · omega
  | @digits depth s ds rest h hs hw hl =>
    refine h.failsAt hr ⟨1, ?_⟩
    cases ds with
    | nil => simp at hl
    | cons c ds =>
      have hc : c.isDigit = true := hw.digits c (by simp)
      have hopen : ∀ b : Char, b.isDigit = false → c ≠ b := by
        rintro b hb rfl
        rw [hc] at hb
        cases hb
      have hlist := hopen '[' (by decide)
      have hdict := hopen '\x7b' (by decide)
      obtain rfl | rfl := hs
      · rw [readValue_scalar (by simp [hlist]) (by simp [hdict]), List.cons_append,
          (readScalar_of_isDigit hc).1, ← List.cons_append, readNumber_append hw hl]
      · rw [readValue_scalar (by simp) (by simp), List.cons_append,
          (readScalar_of_isDigit hc).2, ← List.cons_append, readNumber_append hw hl]

/-- Reading a text ends without a value, though it is well formed so far, exactly where it gives up. -/
theorem read_eq_error_iff (hr : reason ≠ .malformed) (hd : 0 < d.digits) :
    read d cs = .error reason ↔ GivesUp d cs reason := by
  have hstart : read d cs = .error reason ↔
      readValue d (2 * (skipSpaces cs).length + 2) 0 (skipSpaces cs) = .error reason := by
    unfold read
    refine bind_eq_error.trans ⟨fun h => ?_, .inl⟩
    obtain h | ⟨⟨v, rest⟩, -, h⟩ := h
    · exact h
    · simp only at h
      split at h
      · cases h
      · cases h
        exact absurd rfl hr
  rw [hstart]
  refine ⟨(givesUp_of_fails hr hd _).1 _ _ .start, fun h => ?_⟩
  obtain ⟨n, hn⟩ := h.failsAt
  have hsettled : IsSettled (readValue d n 0 (skipSpaces cs)) := by
    rw [hn]
    exact isSettled_error hr
  rw [readValue_of_enough hsettled (Nat.le_refl _), hn]

end CeilingGate.Json
