import CeilingGate.Value.Key
import Mathlib.Data.List.Induction

/-! What a mapping holds that was put together entry by entry. Of the entries under one key the first
gives the spelling and the last the content. -/
namespace CeilingGate.Value

variable {α : Type} {entries before after : List (Value × α)} {k key : Value} {c content : α}
  {s : String}

theorem sameKey_text_iff : sameKey k (.text s) = true ↔ k = .text s := by
  cases k <;> simp [sameKey, sameScalar, toNumeral?]

theorem sameKey_toValue_iff {t : RawText} : sameKey k t.toValue = true ↔ k = t.toValue := by
  cases t with
  | plain s => exact sameKey_text_iff
  | broken b => cases k <;> simp [RawText.toValue, sameKey, sameScalar, toNumeral?]

theorem text_sameKey_iff : sameKey (.text s) k = true ↔ k = .text s := by
  cases k <;> simp only [sameKey, sameScalar, toNumeral?] <;> simp [@eq_comm _ s]

theorem sameKey_tuple_iff {items : List Value} :
    sameKey k (.tuple items) = true ↔ ∃ xs, k = .tuple xs ∧ sameKeys xs items = true := by
  cases k with
  | tuple xs => simp [sameKey]
  | list xs => simp [sameKey, sameScalar, toNumeral?]
  | _ => simp [sameKey, sameScalar, toNumeral?]

theorem sameKeys_nil_iff {xs : List Value} : sameKeys xs [] = true ↔ xs = [] := by
  cases xs <;> simp [sameKeys]

theorem sameKeys_cons_iff {xs items : List Value} {item : Value} :
    sameKeys xs (item :: items) = true ↔
      ∃ x rest, xs = x :: rest ∧ sameKey x item = true ∧ sameKeys rest items = true := by
  cases xs <;> simp [sameKeys, and_assoc]

theorem eqv_self (d : Decimal) : d.eqv d = true := by
  have hself : d.compareMagnitudes d = .eq := by simp [Decimal.compareMagnitudes]
  unfold Decimal.eqv Decimal.compare
  simp [hself]

/-- A key that is put in is there then, in its own spelling or in that of the same key. -/
theorem exists_of_insertEntry (entries : List (Value × α)) (key : Value) (content : α) :
    ∃ k ∈ (insertEntry entries key content).map (·.1), k = key ∨ sameKey k key = true := by
  induction entries with
  | nil => exact ⟨key, by simp [insertEntry], Or.inl rfl⟩
  | cons first rest ih =>
    unfold insertEntry
    split
    · next h => exact ⟨first.1, by simp, Or.inr h⟩
    · obtain ⟨k, hk, h⟩ := ih
      exact ⟨k, List.mem_cons_of_mem _ hk, h⟩

theorem mem_keys_insertEntry (h : k ∈ entries.map (·.1)) (key : Value) (content : α) :
    k ∈ (insertEntry entries key content).map (·.1) := by
  induction entries with
  | nil => cases h
  | cons first rest ih =>
    unfold insertEntry
    split
    · simpa using h
    · rcases List.mem_cons.mp h with rfl | h
      · exact List.mem_cons_self
      · exact List.mem_cons_of_mem _ (ih h)

/-- The content of a text key is the one that was put in last. -/
theorem find?_insertEntry (entries : List (Value × α)) (key : Value) (content : α) (s : String) :
    ((insertEntry entries key content).find? fun e => sameKey e.1 (.text s)).map (·.2) =
      if sameKey key (.text s) then some content
      else (entries.find? fun e => sameKey e.1 (.text s)).map (·.2) := by
  induction entries with
  | nil => cases h : sameKey key (.text s) <;> simp [insertEntry, h]
  | cons first rest ih =>
    obtain ⟨k, c⟩ := first
    unfold insertEntry
    by_cases hk : k = .text s
    · subst hk
      by_cases hkey : key = .text s
      · simp [hkey, sameKey_text_iff]
      · have hne : ¬ sameKey key (.text s) = true := fun h => hkey (sameKey_text_iff.mp h)
        have hne' : ¬ sameKey (.text s) key = true := fun h => hkey (text_sameKey_iff.mp h)
        simp [hne, hne', sameKey_text_iff]
    · have hne : sameKey k (.text s) = false := by simpa using fun h => hk (sameKey_text_iff.mp h)
      split
      · next hsame =>
        have hkey : ¬ sameKey key (.text s) = true := by
          intro h
          rw [sameKey_text_iff.mp h, sameKey_text_iff] at hsame
          exact hk hsame
        simp [hne, hkey]
      · simpa [List.find?_cons, hne] using ih

theorem ofEntries_concat (entries : List (Value × α)) (key : Value) (content : α) :
    ofEntries (entries ++ [(key, content)]) = insertEntry (ofEntries entries) key content := by
  simp [ofEntries, List.foldl_append]

theorem exists_of_ofEntries (h : (key, content) ∈ entries) :
    ∃ k ∈ (ofEntries entries).map (·.1), k = key ∨ sameKey k key = true := by
  induction entries using List.reverseRecOn with
  | nil => cases h
  | append_singleton entries e ih =>
    rw [ofEntries_concat]
    rcases List.mem_append.mp h with h | h
    · obtain ⟨k, hk, hsame⟩ := ih h
      exact ⟨k, mem_keys_insertEntry hk _ _, hsame⟩
    · cases List.mem_singleton.mp h
      exact exists_of_insertEntry _ key content

theorem find?_ofEntries (h : ∀ e ∈ after, e.1 ≠ .text s) (before : List (Value × α)) (c : α) :
    ((ofEntries (before ++ (.text s, c) :: after)).find? fun e => sameKey e.1 (.text s)).map (·.2) =
      some c := by
  induction after using List.reverseRecOn with
  | nil => simp [ofEntries_concat, find?_insertEntry, sameKey_text_iff]
  | append_singleton after e ih =>
    have hlast : ¬ sameKey e.1 (.text s) = true := fun hs => h e (by simp) (sameKey_text_iff.mp hs)
    rw [← List.cons_append, ← List.append_assoc, ofEntries_concat, find?_insertEntry, if_neg hlast]
    exact ih fun e he => h e (by simp [he])

theorem insertEntry_map {β : Type} (f : α → β) (entries : List (Value × α)) (key : Value)
    (content : α) :
    insertEntry (entries.map fun e => (e.1, f e.2)) key (f content) =
      (insertEntry entries key content).map fun e => (e.1, f e.2) := by
  induction entries with
  | nil => rfl
  | cons first rest ih =>
    obtain ⟨k, c⟩ := first
    simp only [List.map_cons, insertEntry]
    split
    · rfl
    · rw [ih, List.map_cons]

theorem ofEntries_map {β : Type} (f : α → β) (entries : List (Value × α)) :
    ofEntries (entries.map fun e => (e.1, f e.2)) =
      (ofEntries entries).map fun e => (e.1, f e.2) := by
  induction entries using List.reverseRecOn with
  | nil => rfl
  | append_singleton entries e ih =>
    rw [List.map_append, List.map_singleton, ofEntries_concat, ofEntries_concat, ih, insertEntry_map]

theorem insertEntry_of_new (h : ∀ e ∈ entries, sameKey e.1 key = false) (content : α) :
    insertEntry entries key content = entries ++ [(key, content)] := by
  induction entries with
  | nil => rfl
  | cons first rest ih =>
    unfold insertEntry
    rw [h first List.mem_cons_self, ih fun e he => h e (List.mem_cons_of_mem _ he)]
    rfl

/-- The content that is put in last is the last one, unless its key stood further in front. -/
theorem getLast?_ofEntries (h : before.length ≤ 1) (k : Value) (c : α) :
    (ofEntries (before ++ [(k, c)])).getLast?.map (·.2) = some c := by
  match before, h with
  | [], _ => rfl
  | [e], _ => cases hsame : sameKey e.1 k <;> simp [ofEntries, insertEntry, hsame]

/-- Entries with different keys stay as they are. -/
theorem ofEntries_of_pairwise (h : entries.Pairwise fun e e' => sameKey e.1 e'.1 = false) :
    ofEntries entries = entries := by
  induction entries using List.reverseRecOn with
  | nil => rfl
  | append_singleton entries e ih =>
    obtain ⟨hentries, -, hlast⟩ := List.pairwise_append.mp h
    rw [ofEntries_concat, ih hentries,
      insertEntry_of_new fun e' he' => hlast e' he' e (List.mem_singleton_self e)]

/-- Keys that are told apart from the others keep to themselves. -/
theorem filter_insertEntry {p : Value → Bool} (h : ∀ e ∈ entries, sameKey e.1 key = true → p e.1 = p key)
    (content : α) : (insertEntry entries key content).filter (fun e => p e.1) =
      if p key = true then insertEntry (entries.filter fun e => p e.1) key content
      else entries.filter fun e => p e.1 := by
  induction entries with
  | nil => cases hp : p key <;> simp [insertEntry, hp]
  | cons first rest ih =>
    have hfirst := h first List.mem_cons_self
    have hrest := ih fun e he => h e (List.mem_cons_of_mem _ he)
    by_cases hsame : sameKey first.1 key = true
    · cases hp : p key <;> simp [insertEntry, hsame, hfirst hsame, hp]
    · have hput : insertEntry (first :: rest) key content = first :: insertEntry rest key content := by
        simp [insertEntry, hsame]
      have hput' : insertEntry (first :: rest.filter fun e => p e.1) key content =
          first :: insertEntry (rest.filter fun e => p e.1) key content := by
        simp [insertEntry, hsame]
      rw [hput, List.filter_cons, List.filter_cons, hrest]
      cases p first.1 <;> cases p key <;> simp [hput']

theorem filter_ofEntries {p : Value → Bool}
    (h : ∀ e ∈ entries, ∀ e' ∈ entries, sameKey e.1 e'.1 = true → p e.1 = p e'.1) :
    (ofEntries entries).filter (fun e => p e.1) = ofEntries (entries.filter fun e => p e.1) := by
  induction entries using List.reverseRecOn with
  | nil => rfl
  | append_singleton entries e ih =>
    have hentries := ih fun a ha b hb => h a (by simp [ha]) b (by simp [hb])
    have hlast : ∀ a ∈ ofEntries entries, sameKey a.1 e.1 = true → p a.1 = p e.1 :=
      forall_ofEntries (p := fun k => sameKey k e.1 = true → p k = p e.1)
        fun a ha => h a (by simp [ha]) e (by simp)
    rw [ofEntries_concat, filter_insertEntry hlast, hentries, List.filter_append]
    cases hp : p e.1
    · simp [hp]
    · simp [hp, ← ofEntries_concat]

end CeilingGate.Value
