import CeilingGate.Workload.Name
import Mathlib.Data.List.TakeDrop
import Mathlib.Data.List.TakeWhile

/-! Where a generated name is cut. A name is cut at the last place of its first line where a tail of
a hash and a suffix starts, or, if there is none, where a tail of a suffix starts. What follows the
last dash counts only by being a word. -/
namespace CeilingGate.Workload

variable {p : List Char → Bool} {q : Char → Bool} {cs s t u a b h x : List Char}
  {c : Char} {i j : Nat}

/-- Tails start with a dash. -/
def NeedsDash (p : List Char → Bool) : Prop := ∀ cs, p cs = true → ∃ rest, cs = '-' :: rest

/-- A tail starts at place `i`, which the first line reaches. -/
def TailAt (p : List Char → Bool) (cs : List Char) (i : Nat) : Prop :=
  '\n' ∉ cs.take i ∧ p (cs.drop i) = true

/-- The last place where a tail starts. -/
def LastTailAt (p : List Char → Bool) (cs : List Char) (i : Nat) : Prop :=
  TailAt p cs i ∧ ∀ j, TailAt p cs j → j ≤ i

/-- Letters and digits, at least one. -/
def IsWord (cs : List Char) : Prop := cs ≠ [] ∧ ∀ c ∈ cs, c.isAlphanum = true

instance : Decidable (IsWord cs) :=
  decidable_of_iff (cs.isEmpty = false ∧ cs.all Char.isAlphanum = true) (by simp [IsWord])

theorem startsHashAndSuffix_needsDash : NeedsDash startsHashAndSuffix := by
  intro cs hcs
  unfold startsHashAndSuffix at hcs
  split at hcs
  · exact ⟨_, rfl⟩
  · cases hcs

theorem startsSuffix_needsDash : NeedsDash startsSuffix := by
  intro cs hcs
  unfold startsSuffix at hcs
  split at hcs
  · exact ⟨_, rfl⟩
  · cases hcs

@[simp] theorem tailAt_zero : TailAt p cs 0 ↔ p cs = true := by simp [TailAt]

@[simp] theorem tailAt_succ : TailAt p (c :: cs) (i + 1) ↔ c ≠ '\n' ∧ TailAt p cs i := by
  simp only [TailAt, List.take_succ_cons, List.drop_succ_cons, List.mem_cons, not_or, and_assoc,
    ne_comm, ne_eq]

theorem not_tailAt_nil (hp : NeedsDash p) : ¬ TailAt p [] i := by
  intro ht
  obtain ⟨rest, hrest⟩ := hp _ ht.2
  simp at hrest

theorem lastTailAt_succ (hc : c ≠ '\n') (hl : LastTailAt p cs i) :
    LastTailAt p (c :: cs) (i + 1) := by
  refine ⟨tailAt_succ.mpr ⟨hc, hl.1⟩, ?_⟩
  intro j hj
  cases j with
  | zero => omega
  | succ j =>
    have := hl.2 j (tailAt_succ.mp hj).2
    omega

theorem not_tailAt_newline (hp : NeedsDash p) : ¬ TailAt p ('\n' :: cs) i := by
  intro ht
  cases i with
  | zero =>
    obtain ⟨rest, hrest⟩ := hp _ (tailAt_zero.mp ht)
    simp at hrest
  | succ i => exact (tailAt_succ.mp ht).1 rfl

/-- The search finds the last place, and fails only if there is none. -/
theorem stemBefore?_spec (hp : NeedsDash p) (cs : List Char) :
    match stemBefore? p cs with
    | some s => ∃ i, LastTailAt p cs i ∧ s = cs.take i
    | none => ∀ i, ¬ TailAt p cs i := by
  induction cs with
  | nil => exact fun i => not_tailAt_nil hp
  | cons c rest ih =>
    unfold stemBefore?
    by_cases hc : c = '\n'
    · subst hc
      exact fun i => not_tailAt_newline hp
    · simp only [beq_iff_eq, hc, if_false]
      cases hs : stemBefore? p rest with
      | some s =>
        rw [hs] at ih
        obtain ⟨i, hi, rfl⟩ := ih
        exact ⟨i + 1, lastTailAt_succ hc hi, rfl⟩
      | none =>
        rw [hs] at ih
        by_cases hhere : p (c :: rest) = true
        · simp only [hhere, if_true]
          refine ⟨0, ⟨tailAt_zero.mpr hhere, ?_⟩, rfl⟩
          intro j hj
          cases j with
          | zero => omega
          | succ j => exact (ih j (tailAt_succ.mp hj).2).elim
        · simp only [hhere]
          intro j hj
          cases j with
          | zero => exact hhere (tailAt_zero.mp hj)
          | succ j => exact ih j (tailAt_succ.mp hj).2

theorem stemBefore?_eq_none_iff (hp : NeedsDash p) :
    stemBefore? p cs = none ↔ ∀ i, ¬ TailAt p cs i := by
  have hspec := stemBefore?_spec hp cs
  cases hs : stemBefore? p cs with
  | none =>
    rw [hs] at hspec
    simpa using hspec
  | some s =>
    rw [hs] at hspec
    obtain ⟨i, hi, _⟩ := hspec
    simp only [reduceCtorEq, false_iff]
    exact fun hn => hn i hi.1

theorem stemBefore?_of_last (hp : NeedsDash p) (hl : LastTailAt p cs i) :
    stemBefore? p cs = some (cs.take i) := by
  have hspec := stemBefore?_spec hp cs
  cases hs : stemBefore? p cs with
  | none => exact ((stemBefore?_eq_none_iff hp).mp hs i hl.1).elim
  | some s =>
    rw [hs] at hspec
    obtain ⟨j, hj, rfl⟩ := hspec
    have hij : i ≤ j := hj.2 i hl.1
    have hji : j ≤ i := hl.2 j hj.1
    rw [Nat.le_antisymm hij hji]

theorem exists_lastTailAt (hp : NeedsDash p) (ht : TailAt p cs i) : ∃ j, LastTailAt p cs j := by
  have hspec := stemBefore?_spec hp cs
  cases hs : stemBefore? p cs with
  | none => exact ((stemBefore?_eq_none_iff hp).mp hs i ht).elim
  | some s =>
    rw [hs] at hspec
    obtain ⟨j, hj, _⟩ := hspec
    exact ⟨j, hj⟩

theorem lt_length_of_tailAt (hp : NeedsDash p) (ht : TailAt p cs i) : i < cs.length := by
  by_contra hn
  obtain ⟨rest, hrest⟩ := hp _ ht.2
  rw [List.drop_eq_nil_of_le (by omega)] at hrest
  cases hrest

theorem stem_of_hash (hl : LastTailAt startsHashAndSuffix cs i) : stem cs = cs.take i := by
  simp [stem, stemBefore?_of_last startsHashAndSuffix_needsDash hl]

theorem stem_of_suffix (hn : ∀ i, ¬ TailAt startsHashAndSuffix cs i)
    (hl : LastTailAt startsSuffix cs i) : stem cs = cs.take i := by
  simp [stem, (stemBefore?_eq_none_iff startsHashAndSuffix_needsDash).mpr hn,
    stemBefore?_of_last startsSuffix_needsDash hl]

/-- A tail of two parts is a dash, a word, and a tail of one part. -/
theorem startsHashAndSuffix_cons (cs : List Char) :
    startsHashAndSuffix ('-' :: cs) =
      (!(cs.takeWhile Char.isAlphanum).isEmpty && startsSuffix (cs.dropWhile Char.isAlphanum)) := by
  simp only [startsHashAndSuffix, List.span_eq_takeWhile_dropWhile]
  rfl

theorem startsSuffix_of_hash (hs : startsHashAndSuffix cs = true) : startsSuffix cs = true := by
  obtain ⟨rest, rfl⟩ := startsHashAndSuffix_needsDash _ hs
  rw [startsHashAndSuffix_cons] at hs
  cases rest with
  | nil => simp at hs
  | cons c rest =>
    by_cases hc : c.isAlphanum = true
    · simpa [startsSuffix] using hc
    · simp [hc] at hs

theorem tailAt_suffix_of_hash (ht : TailAt startsHashAndSuffix cs i) : TailAt startsSuffix cs i :=
  ⟨ht.1, startsSuffix_of_hash ht.2⟩

/-- A name is left as it is exactly if nowhere on its first line a letter or digit follows a dash.
-/
theorem stem_eq_self_iff : stem cs = cs ↔ ∀ i, ¬ TailAt startsSuffix cs i := by
  have hshort : ∀ {i}, TailAt startsSuffix cs i → cs.take i ≠ cs := by
    intro i hi he
    have hlt := lt_length_of_tailAt startsSuffix_needsDash hi
    have := congrArg List.length he
    rw [List.length_take] at this
    omega
  constructor
  · intro hstem i hi
    by_cases hh : ∃ j, TailAt startsHashAndSuffix cs j
    · obtain ⟨j, hj⟩ := hh
      obtain ⟨k, hk⟩ := exists_lastTailAt startsHashAndSuffix_needsDash hj
      exact hshort (tailAt_suffix_of_hash hk.1) ((stem_of_hash hk).symm.trans hstem)
    · obtain ⟨k, hk⟩ := exists_lastTailAt startsSuffix_needsDash hi
      exact hshort hk.1 ((stem_of_suffix (not_exists.mp hh) hk).symm.trans hstem)
  · intro hn
    have hh : ∀ i, ¬ TailAt startsHashAndSuffix cs i := fun i hi => hn i (tailAt_suffix_of_hash hi)
    simp [stem, (stemBefore?_eq_none_iff startsHashAndSuffix_needsDash).mpr hh,
      (stemBefore?_eq_none_iff startsSuffix_needsDash).mpr hn]

/-! ## The word at the end -/

theorem isWord_not_mem_dash (ha : IsWord a) : '-' ∉ a := fun hm => absurd (ha.2 _ hm) (by decide)

theorem IsWord.exists_cons (ha : IsWord a) : ∃ c rest, a = c :: rest ∧ c.isAlphanum = true := by
  obtain ⟨c, rest, rfl⟩ := List.exists_cons_of_ne_nil ha.1
  exact ⟨c, rest, rfl, ha.2 c (by simp)⟩

theorem not_of_no_dash (hp : NeedsDash p) (hd : '-' ∉ cs) : p cs = false := by
  by_contra hn
  obtain ⟨rest, rfl⟩ := hp cs (by simpa using hn)
  simp at hd

theorem not_of_ne_dash (hp : NeedsDash p) (hc : c ≠ '-') : p (c :: cs) = false := by
  by_contra hn
  obtain ⟨rest, hrest⟩ := hp _ (by simpa using hn)
  exact hc (List.cons.inj hrest).1

/-- In a text that ends in a word all tails start before the word. -/
theorem tailAt_append_word (hp : NeedsDash p) (ha : IsWord a) :
    TailAt p (u ++ a) i ↔ i < u.length ∧ '\n' ∉ u.take i ∧ p (u.drop i ++ a) = true := by
  by_cases hi : i < u.length
  · simp [TailAt, hi, List.take_append_of_le_length (Nat.le_of_lt hi),
      List.drop_append_of_le_length (Nat.le_of_lt hi)]
  · simp only [hi, false_and, iff_false]
    intro ht
    have hd : '-' ∉ (u ++ a).drop i := by
      rw [List.drop_append, List.drop_eq_nil_of_le (by omega), List.nil_append]
      exact fun hm => isWord_not_mem_dash ha (List.mem_of_mem_drop hm)
    rw [TailAt, not_of_no_dash hp hd] at ht
    cases ht.2

theorem startsSuffix_append_word (ha : IsWord a) (hb : IsWord b) (u : List Char) :
    startsSuffix (u ++ a) = startsSuffix (u ++ b) := by
  obtain ⟨c, a', rfl, hc⟩ := ha.exists_cons
  obtain ⟨d, b', rfl, hd⟩ := hb.exists_cons
  match u with
  | [] =>
    rw [List.nil_append, List.nil_append,
      not_of_no_dash startsSuffix_needsDash (isWord_not_mem_dash ha),
      not_of_no_dash startsSuffix_needsDash (isWord_not_mem_dash hb)]
  | [e] =>
    by_cases he : e = '-'
    · subst he
      simp [startsSuffix, hc, hd]
    · simp [startsSuffix, he]
  | e :: e' :: u =>
    by_cases he : e = '-'
    · subst he
      simp [startsSuffix]
    · simp [startsSuffix, he]

theorem takeWhile_append_of_stop (hstop : u.dropWhile q ≠ []) (w : List Char) :
    (u ++ w).takeWhile q = u.takeWhile q := by
  have hne : (u.takeWhile q).length ≠ u.length := by
    intro hlen
    have hsplit := congrArg List.length (List.takeWhile_append_dropWhile (p := q) (l := u))
    rw [List.length_append, hlen, Nat.add_eq_left, List.length_eq_zero_iff] at hsplit
    exact hstop hsplit
  rw [List.takeWhile_append, if_neg hne]

theorem dropWhile_append_of_stop (hstop : u.dropWhile q ≠ []) (w : List Char) :
    (u ++ w).dropWhile q = u.dropWhile q ++ w := by
  rw [List.dropWhile_append, if_neg (by simpa using hstop)]

/-- A hash that runs on into the word at the end leaves nothing for a suffix. -/
theorem dropWhile_append_word (hu : u.dropWhile Char.isAlphanum = []) (ha : IsWord a) :
    (u ++ a).dropWhile Char.isAlphanum = [] := by
  rw [List.dropWhile_append, hu]
  simpa using ha.2

theorem startsHashAndSuffix_append_word (ha : IsWord a) (hb : IsWord b) (u : List Char) :
    startsHashAndSuffix (u ++ a) = startsHashAndSuffix (u ++ b) := by
  match u with
  | [] =>
    rw [List.nil_append, List.nil_append,
      not_of_no_dash startsHashAndSuffix_needsDash (isWord_not_mem_dash ha),
      not_of_no_dash startsHashAndSuffix_needsDash (isWord_not_mem_dash hb)]
  | e :: u =>
    by_cases he : e = '-'
    · subst he
      simp only [List.cons_append, startsHashAndSuffix_cons]
      -- the hash runs on into the word, or ends in front of it
      by_cases hu : u.dropWhile Char.isAlphanum = []
      · rw [dropWhile_append_word hu ha, dropWhile_append_word hu hb]
        simp [startsSuffix]
      · rw [takeWhile_append_of_stop hu, takeWhile_append_of_stop hu, dropWhile_append_of_stop hu,
          dropWhile_append_of_stop hu, startsSuffix_append_word ha hb]
    · rw [List.cons_append, List.cons_append, not_of_ne_dash startsHashAndSuffix_needsDash he,
        not_of_ne_dash startsHashAndSuffix_needsDash he]

theorem tailAt_append_congr (hp : NeedsDash p) (hcongr : ∀ u, p (u ++ a) = p (u ++ b))
    (ha : IsWord a) (hb : IsWord b) : TailAt p (u ++ a) i ↔ TailAt p (u ++ b) i := by
  rw [tailAt_append_word hp ha, tailAt_append_word hp hb, hcongr]

theorem stemBefore?_append_congr (hp : NeedsDash p) (hcongr : ∀ u, p (u ++ a) = p (u ++ b))
    (ha : IsWord a) (hb : IsWord b) : stemBefore? p (u ++ a) = stemBefore? p (u ++ b) := by
  have htail : ∀ i, TailAt p (u ++ a) i ↔ TailAt p (u ++ b) i :=
    fun i => tailAt_append_congr hp hcongr ha hb
  by_cases hex : ∃ i, TailAt p (u ++ a) i
  · obtain ⟨i, hi⟩ := hex
    obtain ⟨j, hj⟩ := exists_lastTailAt hp hi
    have hj' : LastTailAt p (u ++ b) j := ⟨(htail j).mp hj.1, fun k hk => hj.2 k ((htail k).mpr hk)⟩
    have hlt : j < u.length := ((tailAt_append_word hp ha).mp hj.1).1
    rw [stemBefore?_of_last hp hj, stemBefore?_of_last hp hj',
      List.take_append_of_le_length (Nat.le_of_lt hlt),
      List.take_append_of_le_length (Nat.le_of_lt hlt)]
  · have hn := not_exists.mp hex
    rw [(stemBefore?_eq_none_iff hp).mpr hn,
      (stemBefore?_eq_none_iff hp).mpr fun i hi => hn i ((htail i).mpr hi)]

/-- Which word ends a name does not matter to its stem, provided that some tail starts before it. -/
theorem stem_append_word (ha : IsWord a) (hb : IsWord b) (ht : TailAt startsSuffix (u ++ a) i) :
    stem (u ++ a) = stem (u ++ b) := by
  obtain ⟨j, hj⟩ := exists_lastTailAt startsSuffix_needsDash ht
  have hsuffix := stemBefore?_append_congr (u := u) startsSuffix_needsDash
    (startsSuffix_append_word ha hb) ha hb
  unfold stem
  rw [stemBefore?_append_congr startsHashAndSuffix_needsDash
    (startsHashAndSuffix_append_word ha hb) ha hb, ← hsuffix,
    stemBefore?_of_last startsSuffix_needsDash hj]
  rfl

/-- A dash at the end, or one before a letter or digit: something is cut off whatever word follows.
-/
def IsCut (cs : List Char) : Prop :=
  (∃ u, cs = u ++ ['-']) ∨ ∃ u c v, cs = u ++ '-' :: c :: v ∧ c.isAlphanum = true

theorem tailAt_of_isCut (hline : '\n' ∉ u) (hu : IsCut u) (ha : IsWord a) :
    ∃ i, TailAt startsSuffix (u ++ a) i := by
  obtain ⟨v, rfl⟩ | ⟨v, c, w, rfl, hc⟩ := hu
  · obtain ⟨c, a', rfl, hc⟩ := ha.exists_cons
    refine ⟨v.length, ?_, ?_⟩
    · simp only [List.mem_append, not_or] at hline
      simpa using hline.1
    · simpa [startsSuffix] using hc
  · refine ⟨v.length, ?_, ?_⟩
    · simp only [List.mem_append, not_or] at hline
      simpa using hline.1
    · simpa [startsSuffix] using hc

theorem two_le_count_dash (hs : startsHashAndSuffix cs = true) : 2 ≤ cs.count '-' := by
  obtain ⟨rest, rfl⟩ := startsHashAndSuffix_needsDash _ hs
  rw [startsHashAndSuffix_cons, Bool.and_eq_true] at hs
  obtain ⟨tail, htail⟩ := startsSuffix_needsDash _ hs.2
  have hle : (rest.dropWhile Char.isAlphanum).count '-' ≤ rest.count '-' :=
    (List.dropWhile_suffix _).sublist.count_le _
  rw [htail, List.count_cons_self] at hle
  rw [List.count_cons_self]
  omega

theorem startsHashAndSuffix_of_word (hh : IsWord h) (hc : c.isAlphanum = true) (rest : List Char) :
    startsHashAndSuffix ('-' :: h ++ '-' :: c :: rest) = true := by
  obtain ⟨d, h', rfl, hd⟩ := hh.exists_cons
  have hdrop : ((d :: h') ++ '-' :: c :: rest).dropWhile Char.isAlphanum = '-' :: c :: rest := by
    have hdash : Char.isAlphanum '-' = false := by decide
    rw [List.dropWhile_append, List.dropWhile_eq_nil_iff.mpr hh.2]
    simp [hdash]
  rw [List.cons_append, startsHashAndSuffix_cons, hdrop]
  simp [hd, startsSuffix, hc]

theorem startsHashAndSuffix_words (hh : IsWord h) (hx : IsWord x) :
    startsHashAndSuffix ('-' :: h ++ '-' :: x) = true := by
  obtain ⟨c, x', rfl, hc⟩ := hx.exists_cons
  exact startsHashAndSuffix_of_word hh hc x'

/-- The stem of a name that a stem, a hash and a suffix make up. -/
theorem stem_append_hash (ht : '\n' ∉ t) (hh : IsWord h) (hx : IsWord x) :
    stem (t ++ '-' :: h ++ '-' :: x) = t := by
  have hname : t ++ '-' :: h ++ '-' :: x = t ++ ('-' :: h ++ '-' :: x) := by simp
  have hcount : ('-' :: h ++ '-' :: x).count '-' = 2 := by
    simp [List.count_eq_zero.mpr (isWord_not_mem_dash hh),
      List.count_eq_zero.mpr (isWord_not_mem_dash hx)]
  have hl : LastTailAt startsHashAndSuffix (t ++ '-' :: h ++ '-' :: x) t.length := by
    rw [hname]
    refine ⟨⟨by simpa using ht, by simpa using startsHashAndSuffix_words hh hx⟩, ?_⟩
    intro j hj
    by_contra hlt
    -- a tail that starts later would have one of the two dashes only
    obtain ⟨k, rfl⟩ : ∃ k, j = t.length + (k + 1) := ⟨j - t.length - 1, by omega⟩
    have htwo := two_le_count_dash hj.2
    rw [List.drop_append, List.drop_eq_nil_of_le (by omega), List.nil_append,
      Nat.add_sub_cancel_left, List.cons_append, List.drop_succ_cons] at htwo
    have hle := (List.drop_sublist k (h ++ '-' :: x)).count_le '-'
    rw [List.cons_append, List.count_cons_self] at hcount
    omega
  rw [stem_of_hash hl, hname, List.take_left]

end CeilingGate.Workload
