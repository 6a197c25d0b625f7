import CeilingGate.Proofs.Workload.Tail
import Mathlib.Order.Bounds.Defs
import Mathlib.Data.Set.Basic

/-! Where the two patterns of generated names match. Each takes as much of the first line as it can for
the stem, and gives characters back until a tail follows; so a name is cut at the greatest of the
places where a tail starts. -/
namespace CeilingGate.Workload

variable {p : List Char → Bool} {q : Char → Bool} {cs r t h x a b : List Char} {i : Nat}

/-! ## Matching -/

/-- The ways in which a pattern matches the start of a text, in the order in which they are tried:
what each takes, and what it leaves. -/
abbrev Pattern := List Char → List (List Char × List Char)

def one (q : Char → Bool) : Pattern
  | [] => []
  | c :: cs => if q c then [([c], cs)] else []

/-- As many characters as there are, then one after the other fewer. -/
def many (q : Char → Bool) : Pattern
  | [] => [([], [])]
  | c :: cs =>
    if q c then ((many q cs).map fun w => (c :: w.1, w.2)) ++ [([], c :: cs)] else [([], c :: cs)]

def andThen (first second : Pattern) : Pattern := fun cs =>
  (first cs).flatMap fun w => (second w.2).map fun v => (w.1 ++ v.1, v.2)

def wordPattern : Pattern := andThen (one Char.isAlphanum) (many Char.isAlphanum)

/-- A dash and a word. -/
def suffixPattern : Pattern := andThen (one (· == '-')) wordPattern

/-- A dash and a word, twice. -/
def hashPattern : Pattern := andThen suffixPattern suffixPattern

/-- What the first match takes before the tail. -/
def firstStem? (tail : Pattern) (cs : List Char) : Option (List Char) :=
  ((many (· != '\n') cs).flatMap fun w => (tail w.2).map fun _ => w.1).head?

/-- The stem by the pattern of two words, else by that of one. -/
def matchedStem (cs : List Char) : List Char :=
  ((firstStem? hashPattern cs).or (firstStem? suffixPattern cs)).getD cs

theorem mem_one : (a, b) ∈ one q cs ↔ ∃ c, q c = true ∧ a = [c] ∧ cs = c :: b := by
  cases cs with
  | nil => simp [one]
  | cons d cs =>
    by_cases hd : q d = true
    · simp only [one, hd, if_true, List.mem_singleton, Prod.mk.injEq, List.cons.injEq]
      constructor
      · rintro ⟨rfl, rfl⟩
        exact ⟨d, hd, rfl, rfl, rfl⟩
      · rintro ⟨c, -, rfl, rfl, rfl⟩
        exact ⟨rfl, rfl⟩
    · simp only [one, hd, List.cons.injEq]
      constructor
      · intro hm
        cases hm
      · rintro ⟨c, hc, -, rfl, -⟩
        exact absurd hc hd

theorem mem_many_cons {d : Char} : (a, b) ∈ many q (d :: cs) ↔
    (a = [] ∧ b = d :: cs) ∨ ∃ v, q d = true ∧ (v, b) ∈ many q cs ∧ a = d :: v := by
  by_cases hd : q d = true
  · simp only [many, hd, if_true, List.mem_append, List.mem_singleton, List.mem_map, Prod.exists,
      Prod.mk.injEq, true_and]
    constructor
    · rintro (⟨v, rest, hv, rfl, rfl⟩ | hnone)
      · exact Or.inr ⟨v, hv, rfl⟩
      · exact Or.inl hnone
    · rintro (hnone | ⟨v, hv, rfl⟩)
      · exact Or.inr hnone
      · exact Or.inl ⟨v, b, hv, rfl, rfl⟩
  · simp [many, hd]

theorem mem_many : (a, b) ∈ many q cs ↔ cs = a ++ b ∧ ∀ c ∈ a, q c = true := by
  induction cs generalizing a with
  | nil =>
    simp only [many, List.mem_singleton, Prod.mk.injEq, List.nil_eq, List.append_eq_nil_iff]
    exact ⟨fun hab => ⟨hab, by simp [hab.1]⟩, And.left⟩
  | cons d cs ih =>
    rw [mem_many_cons]
    constructor
    · rintro (⟨rfl, rfl⟩ | ⟨v, hd, hv, rfl⟩)
      · exact ⟨rfl, by simp⟩
      · obtain ⟨rfl, hall⟩ := ih.mp hv
        exact ⟨rfl, List.forall_mem_cons.mpr ⟨hd, hall⟩⟩
    · rintro ⟨hcs, hall⟩
      cases a with
      | nil => exact Or.inl ⟨rfl, hcs.symm⟩
      | cons c v =>
        obtain ⟨rfl, rfl⟩ := List.cons.inj hcs
        obtain ⟨hd, hv⟩ := List.forall_mem_cons.mp hall
        exact Or.inr ⟨v, hd, ih.mpr ⟨rfl, hv⟩, rfl⟩

theorem mem_andThen {first second : Pattern} :
    (a, b) ∈ andThen first second cs ↔
      ∃ u v rest, (u, rest) ∈ first cs ∧ (v, b) ∈ second rest ∧ a = u ++ v := by
  simp only [andThen, List.mem_flatMap, List.mem_map, Prod.exists, Prod.mk.injEq]
  constructor
  · rintro ⟨u, rest, hu, v, b', hv, rfl, rfl⟩
    exact ⟨u, v, rest, hu, hv, rfl⟩
  · rintro ⟨u, v, rest, hu, hv, rfl⟩
    exact ⟨u, rest, hu, v, b, hv, rfl, rfl⟩

theorem mem_wordPattern : (a, b) ∈ wordPattern cs ↔ cs = a ++ b ∧ IsWord a := by
  simp only [wordPattern, mem_andThen, mem_one, mem_many]
  constructor
  · rintro ⟨u, v, rest, ⟨c, hc, rfl, rfl⟩, ⟨rfl, hv⟩, rfl⟩
    exact ⟨rfl, by simp, List.forall_mem_cons.mpr ⟨hc, hv⟩⟩
  · rintro ⟨rfl, ha⟩
    obtain ⟨c, v, rfl, hc⟩ := ha.exists_cons
    exact ⟨[c], v, v ++ b, ⟨c, hc, rfl, rfl⟩, ⟨rfl, (List.forall_mem_cons.mp ha.2).2⟩, rfl⟩

theorem mem_suffixPattern :
    (a, b) ∈ suffixPattern cs ↔ ∃ x, IsWord x ∧ a = '-' :: x ∧ cs = '-' :: x ++ b := by
  simp only [suffixPattern, mem_andThen, mem_one, mem_wordPattern, beq_iff_eq]
  constructor
  · rintro ⟨u, x, rest, ⟨c, rfl, rfl, rfl⟩, ⟨rfl, hx⟩, rfl⟩
    exact ⟨x, hx, rfl, rfl⟩
  · rintro ⟨x, hx, rfl, rfl⟩
    exact ⟨['-'], x, x ++ b, ⟨'-', rfl, rfl, rfl⟩, ⟨rfl, hx⟩, rfl⟩

theorem mem_hashPattern : (a, b) ∈ hashPattern cs ↔
    ∃ h x, IsWord h ∧ IsWord x ∧ a = '-' :: h ++ '-' :: x ∧ cs = '-' :: h ++ '-' :: x ++ b := by
  simp only [hashPattern, mem_andThen, mem_suffixPattern]
  constructor
  · rintro ⟨u, v, rest, ⟨h, hh, rfl, rfl⟩, ⟨x, hx, rfl, rfl⟩, rfl⟩
    exact ⟨h, x, hh, hx, rfl, by simp⟩
  · rintro ⟨h, x, hh, hx, rfl, rfl⟩
    exact ⟨'-' :: h, '-' :: x, '-' :: x ++ b, ⟨h, hh, rfl, by simp⟩, ⟨x, hx, rfl, rfl⟩, rfl⟩

/-- A pattern matches exactly where a tail starts. -/
def Matches (tail : Pattern) (p : List Char → Bool) : Prop :=
  ∀ cs, p cs = true ↔ ∃ w, w ∈ tail cs

theorem suffixPattern_matches : Matches suffixPattern startsSuffix := by
  intro cs
  constructor
  · intro hs
    obtain ⟨x, rest, hx, -, hcs⟩ := exists_word_of_startsSuffix hs
    exact ⟨('-' :: x, rest), mem_suffixPattern.mpr ⟨x, hx, rfl, hcs⟩⟩
  · rintro ⟨⟨a, b⟩, hw⟩
    obtain ⟨x, hx, -, rfl⟩ := mem_suffixPattern.mp hw
    obtain ⟨c, x', rfl, hc⟩ := hx.exists_cons
    simpa [startsSuffix] using hc

theorem hashPattern_matches : Matches hashPattern startsHashAndSuffix := by
  intro cs
  constructor
  · intro hs
    obtain ⟨h, x, rest, hh, hx, -, hcs⟩ := exists_words_of_startsHash hs
    exact ⟨('-' :: h ++ '-' :: x, rest), mem_hashPattern.mpr ⟨h, x, hh, hx, rfl, hcs⟩⟩
  · rintro ⟨⟨a, b⟩, hw⟩
    obtain ⟨h, x, hh, hx, -, rfl⟩ := mem_hashPattern.mp hw
    obtain ⟨c, x', rfl, hc⟩ := hx.exists_cons
    rw [List.append_assoc]
    exact startsHashAndSuffix_of_word hh hc (x' ++ b)

theorem Matches.eq_nil {tail : Pattern} (ht : Matches tail p) (hcs : p cs = false) :
    tail cs = [] := by
  rw [List.eq_nil_iff_forall_not_mem]
  intro w hw
  rw [(ht cs).mpr ⟨w, hw⟩] at hcs
  cases hcs

theorem Matches.head? {tail : Pattern} (ht : Matches tail p) (stem : List Char) :
    ((tail cs).map fun _ => stem).head? = if p cs = true then some stem else none := by
  split
  · next hcs =>
    obtain ⟨w, hw⟩ := (ht cs).mp hcs
    cases htail : tail cs with
    | nil => simp [htail] at hw
    | cons => rfl
  · next hcs => rw [ht.eq_nil (by simpa using hcs)]; rfl

/-- Giving characters back one after the other finds the last place of the first line. -/
theorem firstStem?_eq {tail : Pattern} (hp : NeedsDash p) (ht : Matches tail p) (cs : List Char) :
    firstStem? tail cs = stemBefore? p cs := by
  induction cs with
  | nil =>
    have hnil : p [] = false := not_of_no_dash hp (by simp)
    simp [firstStem?, many, stemBefore?, ht.eq_nil hnil]
  | cons c cs ih =>
    by_cases hc : c = '\n'
    · subst hc
      have hline : p ('\n' :: cs) = false := not_of_ne_dash hp (by decide)
      simp [firstStem?, many, stemBefore?, ht.eq_nil hline]
    · have hmany : many (· != '\n') (c :: cs) =
          ((many (· != '\n') cs).map fun w => (c :: w.1, w.2)) ++ [([], c :: cs)] := by
        simp [many, hc]
      have hlater : ((((many (· != '\n') cs).map fun w => (c :: w.1, w.2)).flatMap
          fun w => (tail w.2).map fun _ => w.1).head?) = (stemBefore? p cs).map (c :: ·) := by
        rw [← ih, firstStem?, ← List.head?_map, List.map_flatMap, List.flatMap_map]
        simp only [List.map_map]
        rfl
      rw [firstStem?, hmany, List.flatMap_append, List.head?_append, hlater, List.flatMap_singleton,
        ht.head?, stemBefore?]
      cases stemBefore? p cs <;> simp [hc]

theorem stem_eq_matchedStem (cs : List Char) : stem cs = matchedStem cs := by
  rw [stem, matchedStem, firstStem?_eq startsHashAndSuffix_needsDash hashPattern_matches,
    firstStem?_eq startsSuffix_needsDash suffixPattern_matches]
  cases stemBefore? startsHashAndSuffix cs <;> rfl

/-! ## Places -/

/-- Where, no further than the first line, a dash, a word, a dash and a letter or digit start. -/
def hashPlaces (cs : List Char) : Set ℕ :=
  {i | '\n' ∉ cs.take i ∧
    ∃ h c rest, IsWord h ∧ c.isAlphanum = true ∧ cs.drop i = '-' :: h ++ '-' :: c :: rest}

/-- Where, no further than the first line, a dash and a letter or digit start. -/
def suffixPlaces (cs : List Char) : Set ℕ :=
  {i | '\n' ∉ cs.take i ∧ ∃ c rest, c.isAlphanum = true ∧ cs.drop i = '-' :: c :: rest}

/-- A text is cut at the last place of the one kind, else at the last of the other, else not at all. -/
inductive CutsTo (cs : List Char) : List Char → Prop
  | hash {i : ℕ} (hi : IsGreatest (hashPlaces cs) i) : CutsTo cs (cs.take i)
  | suffix {i : ℕ} (hn : hashPlaces cs = ∅) (hi : IsGreatest (suffixPlaces cs) i) :
      CutsTo cs (cs.take i)
  | whole (hn : hashPlaces cs = ∅) (hs : suffixPlaces cs = ∅) : CutsTo cs cs

theorem mem_hashPlaces : i ∈ hashPlaces cs ↔ TailAt startsHashAndSuffix cs i := by
  refine and_congr_right fun _ => ⟨?_, fun hs => ?_⟩
  · rintro ⟨h, c, rest, hh, hc, hcs⟩
    rw [hcs]
    exact startsHashAndSuffix_of_word hh hc rest
  · obtain ⟨h, x, rest, hh, hx, -, hcs⟩ := exists_words_of_startsHash hs
    obtain ⟨c, x', rfl, hc⟩ := hx.exists_cons
    exact ⟨h, c, x' ++ rest, hh, hc, by simpa using hcs⟩

theorem mem_suffixPlaces : i ∈ suffixPlaces cs ↔ TailAt startsSuffix cs i := by
  refine and_congr_right fun _ => ⟨?_, fun hs => ?_⟩
  · rintro ⟨c, rest, hc, hcs⟩
    simpa [hcs, startsSuffix] using hc
  · obtain ⟨x, rest, hx, -, hcs⟩ := exists_word_of_startsSuffix hs
    obtain ⟨c, x', rfl, hc⟩ := hx.exists_cons
    exact ⟨c, x' ++ rest, hc, by simpa using hcs⟩

theorem hashPlaces_eq_empty_iff : hashPlaces cs = ∅ ↔ ¬ HasHash cs := by
  simp only [Set.eq_empty_iff_forall_notMem, mem_hashPlaces, HasHash, not_exists]

theorem suffixPlaces_eq_empty_iff : suffixPlaces cs = ∅ ↔ ∀ i, ¬ TailAt startsSuffix cs i := by
  simp only [Set.eq_empty_iff_forall_notMem, mem_suffixPlaces]

theorem isGreatest_hashPlaces_iff :
    IsGreatest (hashPlaces cs) i ↔ LastTailAt startsHashAndSuffix cs i :=
  and_congr mem_hashPlaces (forall_congr' fun _ => imp_congr_left mem_hashPlaces)

theorem isGreatest_suffixPlaces_iff :
    IsGreatest (suffixPlaces cs) i ↔ LastTailAt startsSuffix cs i :=
  and_congr mem_suffixPlaces (forall_congr' fun _ => imp_congr_left mem_suffixPlaces)

theorem CutsTo.eq_stem (hr : CutsTo cs r) : r = stem cs := by
  cases hr with
  | hash hi => exact (stem_of_hash (isGreatest_hashPlaces_iff.mp hi)).symm
  | suffix hn hi =>
    have hnone := not_exists.mp (hashPlaces_eq_empty_iff.mp hn)
    exact (stem_of_suffix hnone (isGreatest_suffixPlaces_iff.mp hi)).symm
  | whole _ hs => exact (stem_eq_self_iff.mpr (suffixPlaces_eq_empty_iff.mp hs)).symm

theorem cutsTo_stem (cs : List Char) : CutsTo cs (stem cs) := by
  by_cases hh : HasHash cs
  · obtain ⟨j, hj⟩ := hh
    obtain ⟨i, hi⟩ := exists_lastTailAt startsHashAndSuffix_needsDash hj
    rw [stem_of_hash hi]
    exact .hash (isGreatest_hashPlaces_iff.mpr hi)
  · have hn := hashPlaces_eq_empty_iff.mpr hh
    by_cases hs : ∃ i, TailAt startsSuffix cs i
    · obtain ⟨j, hj⟩ := hs
      obtain ⟨i, hi⟩ := exists_lastTailAt startsSuffix_needsDash hj
      rw [stem_of_suffix (not_exists.mp hh) hi]
      exact .suffix hn (isGreatest_suffixPlaces_iff.mpr hi)
    · have hnone := not_exists.mp hs
      rw [stem_eq_self_iff.mpr hnone]
      exact .whole hn (suffixPlaces_eq_empty_iff.mpr hnone)

/-- A single suffix comes off exactly if no tail of two words starts anywhere. -/
theorem stem_append_suffix_iff (ht : '\n' ∉ t) (hx : IsWord x) :
    stem (t ++ '-' :: x) = t ↔ hashPlaces (t ++ '-' :: x) = ∅ := by
  rw [hashPlaces_eq_empty_iff]
  refine ⟨fun hstem hh => ?_, stem_append_suffix ht hx⟩
  have htwo : 2 ≤ ('-' :: x).count '-' := two_le_count_of_hasHash hh (by rw [hstem])
  rw [count_dash_word hx] at htwo
  omega

/-- A name is cut where the patterns match, which is at the last place where a tail starts. So a tail of two
words comes off whatever stands before it, and one of a single word exactly if no tail of two words
starts anywhere. -/
theorem normaliseName_cuts_last (name : String) :
    (∀ r : String, normaliseName name = r ↔ CutsTo name.toList r.toList) ∧
      normaliseName name = String.ofList (matchedStem name.toList) ∧
      (∀ t h x : String, '\n' ∉ t.toList → IsWord h.toList → IsWord x.toList →
        normaliseName (t ++ "-" ++ h ++ "-" ++ x) = t) ∧
      ∀ t x : String, '\n' ∉ t.toList → IsWord x.toList →
        (normaliseName (t ++ "-" ++ x) = t ↔ hashPlaces (t ++ "-" ++ x).toList = ∅) := by
  have hlist : ∀ name r : String, normaliseName name = r ↔ stem name.toList = r.toList := by
    intro name r
    rw [normaliseName, ← String.toList_inj, String.toList_ofList]
  refine ⟨fun r => ?_, ?_, fun t h x ht hh hx => ?_, fun t x ht hx => ?_⟩
  · rw [hlist]
    exact ⟨fun hr => hr ▸ cutsTo_stem _, fun hr => hr.eq_stem.symm⟩
  · rw [normaliseName, stem_eq_matchedStem]
  · rw [hlist]
    simpa using stem_append_hash ht hh hx
  · rw [hlist]
    simpa using stem_append_suffix_iff ht hx

theorem normaliseName_cuts_last_nightly :
    ('\n' ∉ "backup-nightly".toList ∧ IsWord "7d9f8".toList ∧ IsWord "x2z4k".toList) ∧
      normaliseName ("backup-nightly" ++ "-" ++ "x2z4k") ≠ "backup-nightly" ∧
      normaliseName ("backup-nightly" ++ "-" ++ "7d9f8" ++ "-" ++ "x2z4k") = "backup-nightly" := by
  have hline : '\n' ∉ "backup-nightly".toList := by decide
  have hhash : IsWord "7d9f8".toList := by decide
  have hword : IsWord "x2z4k".toList := by decide
  obtain ⟨-, -, htwo, hone⟩ := normaliseName_cuts_last "backup-nightly-x2z4k"
  refine ⟨⟨hline, hhash, hword⟩, fun hname => ?_, htwo _ _ _ hline hhash hword⟩
  have hempty := (hone _ _ hline hword).mp hname
  have hplace : 6 ∈ hashPlaces ("backup-nightly" ++ "-" ++ "x2z4k").toList :=
    mem_hashPlaces.mpr ⟨by decide, by decide⟩
  rw [hempty] at hplace
  exact hplace

end CeilingGate.Workload
