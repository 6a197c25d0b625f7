import CeilingGate.Proofs.Workload.Stem

/-! What is cut off a name. It starts with a generated tail, and is no more than that exactly if the name
ends where a generated tail ends: nothing looks at what stands behind the tail. -/
namespace CeilingGate.Workload

variable {cs t a tail x : List Char} {name : String}

/-- A dash and a word, once or twice. -/
def IsTail (cs : List Char) : Prop :=
  (∃ a, IsWord a ∧ cs = '-' :: a) ∨ ∃ a b, IsWord a ∧ IsWord b ∧ cs = '-' :: a ++ '-' :: b

/-- No word goes on here. -/
def EndsWord (cs : List Char) : Prop := ∀ c ∈ cs.head?, c.isAlphanum = false

/-- The name stays, or a tail is taken off its end, and nothing else. -/
def LosesTailOnly (name : String) : Prop :=
  normaliseName name = name ∨ ∃ tail, IsTail tail ∧ name.toList = (normaliseName name).toList ++ tail

/-- The name ends in a dash and a word. -/
def EndsInWord (cs : List Char) : Prop := ∃ u a, IsWord a ∧ cs = u ++ '-' :: a

/-- The name ends in two words with a dash in front of each. -/
def EndsInTwoWords (cs : List Char) : Prop :=
  ∃ u a b, IsWord a ∧ IsWord b ∧ cs = u ++ '-' :: a ++ '-' :: b

/-- Somewhere on the first line a tail of two words starts. -/
def HasHash (cs : List Char) : Prop := ∃ i, TailAt startsHashAndSuffix cs i

theorem count_dash_word (ha : IsWord a) : ('-' :: a).count '-' = 1 := by
  simp [List.count_eq_zero.mpr (isWord_not_mem_dash ha)]

theorem isTail_chars (ht : IsTail tail) : ∀ c ∈ tail, c = '-' ∨ c.isAlphanum = true := by
  obtain ⟨a, ha, rfl⟩ | ⟨a, b, ha, hb, rfl⟩ := ht
  · intro c hc
    obtain rfl | hc := List.mem_cons.mp hc
    · exact Or.inl rfl
    · exact Or.inr (ha.2 c hc)
  · intro c hc
    simp only [List.cons_append, List.mem_cons, List.mem_append] at hc
    obtain rfl | hc | rfl | hc := hc
    · exact Or.inl rfl
    · exact Or.inr (ha.2 c hc)
    · exact Or.inl rfl
    · exact Or.inr (hb.2 c hc)

theorem endsWord_dropWhile (cs : List Char) : EndsWord (cs.dropWhile Char.isAlphanum) := by
  intro c hc
  obtain ⟨rest, hrest⟩ := List.head?_eq_some_iff.mp hc
  have hne : cs.dropWhile Char.isAlphanum ≠ [] := by simp [hrest]
  have hhead := List.head_dropWhile_not Char.isAlphanum hne
  simpa [hrest] using hhead

theorem isWord_takeWhile (hne : cs.takeWhile Char.isAlphanum ≠ []) :
    IsWord (cs.takeWhile Char.isAlphanum) :=
  ⟨hne, fun _ hc => List.mem_takeWhile_imp hc⟩

/-- A suffix that starts here is a dash and a word, which ends somewhere. -/
theorem exists_word_of_startsSuffix (h : startsSuffix cs = true) :
    ∃ a rest, IsWord a ∧ EndsWord rest ∧ cs = '-' :: a ++ rest := by
  obtain ⟨w, rfl⟩ := startsSuffix_needsDash _ h
  refine ⟨w.takeWhile Char.isAlphanum, w.dropWhile Char.isAlphanum, isWord_takeWhile ?_,
    endsWord_dropWhile w, by simp⟩
  cases w with
  | nil => simp [startsSuffix] at h
  | cons c w =>
    have hc : c.isAlphanum = true := by simpa [startsSuffix] using h
    simp [hc]

theorem exists_words_of_startsHash (h : startsHashAndSuffix cs = true) :
    ∃ a b rest, IsWord a ∧ IsWord b ∧ EndsWord rest ∧ cs = '-' :: a ++ '-' :: b ++ rest := by
  obtain ⟨w, rfl⟩ := startsHashAndSuffix_needsDash _ h
  rw [startsHashAndSuffix_cons, Bool.and_eq_true] at h
  obtain ⟨b, rest, hb, hrest, hsuffix⟩ := exists_word_of_startsSuffix h.2
  refine ⟨w.takeWhile Char.isAlphanum, b, rest, isWord_takeWhile (by simpa using h.1), hb, hrest, ?_⟩
  have hw := List.takeWhile_append_dropWhile (p := Char.isAlphanum) (l := w)
  rw [hsuffix] at hw
  simpa using hw.symm

/-- A name that is not left as it is is cut in front of a tail; behind the tail anything may stand. -/
theorem stem_cases (cs : List Char) :
    stem cs = cs ∨ ∃ tail rest, IsTail tail ∧ EndsWord rest ∧ cs = stem cs ++ tail ++ rest := by
  by_cases hs : ∃ i, TailAt startsSuffix cs i
  · right
    by_cases hh : HasHash cs
    · obtain ⟨j, hj⟩ := hh
      obtain ⟨i, hi⟩ := exists_lastTailAt startsHashAndSuffix_needsDash hj
      obtain ⟨a, b, rest, ha, hb, hrest, hdrop⟩ := exists_words_of_startsHash hi.1.2
      refine ⟨'-' :: a ++ '-' :: b, rest, Or.inr ⟨a, b, ha, hb, rfl⟩, hrest, ?_⟩
      rw [stem_of_hash hi, List.append_assoc, ← hdrop, List.take_append_drop]
    · obtain ⟨j, hj⟩ := hs
      obtain ⟨i, hi⟩ := exists_lastTailAt startsSuffix_needsDash hj
      obtain ⟨a, rest, ha, hrest, hdrop⟩ := exists_word_of_startsSuffix hi.1.2
      refine ⟨'-' :: a, rest, Or.inl ⟨a, ha, rfl⟩, hrest, ?_⟩
      rw [stem_of_suffix (not_exists.mp hh) hi, List.append_assoc, ← hdrop, List.take_append_drop]
  · exact Or.inl (stem_eq_self_iff.mpr (not_exists.mp hs))

/-- The stem of a name that a stem and a suffix make up, unless a hash is met before. -/
theorem stem_append_suffix (ht : '\n' ∉ t) (hx : IsWord x) (hn : ¬ HasHash (t ++ '-' :: x)) :
    stem (t ++ '-' :: x) = t := by
  have hl : LastTailAt startsSuffix (t ++ '-' :: x) t.length := by
    obtain ⟨c, x', rfl, hc⟩ := hx.exists_cons
    refine ⟨⟨by simpa using ht, by simpa [startsSuffix] using hc⟩, ?_⟩
    intro j hj
    by_contra hlt
    -- a tail that starts later would start inside the word
    obtain ⟨k, rfl⟩ : ∃ k, j = t.length + (k + 1) := ⟨j - t.length - 1, by omega⟩
    obtain ⟨rest, hrest⟩ := startsSuffix_needsDash _ hj.2
    rw [List.drop_append, List.drop_eq_nil_of_le (by omega), List.nil_append,
      Nat.add_sub_cancel_left, List.drop_succ_cons] at hrest
    exact isWord_not_mem_dash hx (List.mem_of_mem_drop (hrest ▸ List.mem_cons_self))
  rw [stem_of_suffix (not_exists.mp hn) hl, List.take_left]

/-- What is taken off a name with a hash has a dash twice. -/
theorem two_le_count_of_hasHash (hh : HasHash cs) (hcut : cs = stem cs ++ tail) :
    2 ≤ tail.count '-' := by
  obtain ⟨j, hj⟩ := hh
  obtain ⟨i, hi⟩ := exists_lastTailAt startsHashAndSuffix_needsDash hj
  have hdrop : tail = cs.drop i := by
    rw [stem_of_hash hi] at hcut
    exact List.append_cancel_left (hcut.symm.trans (List.take_append_drop i cs).symm)
  rw [hdrop]
  exact two_le_count_dash hi.1.2

/-- No more than a tail is lost exactly if no tail starts anywhere, or the name ends in one: of two
words, or of one word if nowhere a tail of two words starts. -/
theorem stem_losesTailOnly_iff (hline : '\n' ∉ cs) :
    (stem cs = cs ∨ ∃ tail, IsTail tail ∧ cs = stem cs ++ tail) ↔
      (∀ i, ¬ TailAt startsSuffix cs i) ∨ EndsInTwoWords cs ∨ (EndsInWord cs ∧ ¬ HasHash cs) := by
  constructor
  · rintro (hself | ⟨tail, ⟨a, ha, rfl⟩ | ⟨a, b, ha, hb, rfl⟩, hcut⟩)
    · exact Or.inl (stem_eq_self_iff.mp hself)
    · refine Or.inr (Or.inr ⟨⟨stem cs, a, ha, hcut⟩, fun hh => ?_⟩)
      have htwo := two_le_count_of_hasHash hh hcut
      rw [count_dash_word ha] at htwo
      omega
    · exact Or.inr (Or.inl ⟨stem cs, a, b, ha, hb, by simpa using hcut⟩)
  · rintro (hn | ⟨u, a, b, ha, hb, rfl⟩ | ⟨⟨u, a, ha, rfl⟩, hn⟩)
    · exact Or.inl (stem_eq_self_iff.mpr hn)
    · refine Or.inr ⟨'-' :: a ++ '-' :: b, Or.inr ⟨a, b, ha, hb, rfl⟩, ?_⟩
      have hu : '\n' ∉ u := fun hm => hline (by simp [hm])
      rw [stem_append_hash hu ha hb]
      simp
    · refine Or.inr ⟨'-' :: a, Or.inl ⟨a, ha, rfl⟩, ?_⟩
      have hu : '\n' ∉ u := fun hm => hline (by simp [hm])
      rw [stem_append_suffix hu ha hn]

/-- Off a name of one line something is cut that starts with a tail. It is a tail and nothing else exactly
if the name ends in a tail of two words, or in one of one word while nowhere a tail of two words
starts. -/
theorem losesTailOnly_iff (hline : '\n' ∉ name.toList) :
    (normaliseName name = name ∨ ∃ tail rest, IsTail tail ∧ EndsWord rest ∧
        name.toList = (normaliseName name).toList ++ tail ++ rest) ∧
      (LosesTailOnly name ↔ (∀ i, ¬ TailAt startsSuffix name.toList i) ∨
        EndsInTwoWords name.toList ∨ (EndsInWord name.toList ∧ ¬ HasHash name.toList)) := by
  have hlist : (normaliseName name).toList = stem name.toList := String.toList_ofList
  have hself : normaliseName name = name ↔ stem name.toList = name.toList := by
    rw [← String.toList_inj, hlist]
  rw [LosesTailOnly, hself, hlist]
  exact ⟨stem_cases name.toList, stem_losesTailOnly_iff hline⟩

theorem losesTailOnly_web :
    '\n' ∉ "web-7d9f8-x2z4k".toList ∧ LosesTailOnly "web-7d9f8-x2z4k" := by
  have hline : '\n' ∉ "web-7d9f8-x2z4k".toList := by decide
  have hends : EndsInTwoWords "web-7d9f8-x2z4k".toList :=
    ⟨"web".toList, "7d9f8".toList, "x2z4k".toList, by decide, by decide, rfl⟩
  exact ⟨hline, (losesTailOnly_iff hline).2.mpr (Or.inr (Or.inl hends))⟩

/-- Of a name with a point in it everything behind the stem is lost. -/
theorem not_losesTailOnly_dotted :
    normaliseName "web-1.example" = "web" ∧ ¬ LosesTailOnly "web-1.example" := by
  have hname : normaliseName "web-1.example" = "web" := by decide
  refine ⟨hname, ?_⟩
  rintro (hself | ⟨tail, htail, hcut⟩)
  · rw [hname] at hself
    exact absurd hself (by decide)
  · rw [hname] at hcut
    have hwhole : "web".toList ++ "-1.example".toList = "web".toList ++ tail := hcut
    have hpoint : '.' ∈ tail := List.append_cancel_left hwhole ▸ (by decide)
    exact absurd (isTail_chars htail '.' hpoint) (by decide)

end CeilingGate.Workload
