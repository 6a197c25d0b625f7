import CeilingGate.Policy.Loader
import CeilingGate.Proofs.Yaml.Read
import CeilingGate.Proofs.Yaml.Sections

/-! Reading a policy is answered with a generation or a fault, unless the reader of its text gives up. -/
namespace CeilingGate.Policy

open CeilingGate.Yaml

variable {d : Document} {s : Source} {source? : Option RawText} {v k : Value} {a : Abort}
  {entries : List (Value × Value)}

/-- The characters of a source. A text with halves of pairs is not made of characters. -/
def Source.characters? : Source → Option (List Char)
  | .text (.plain s) => some s.toList
  | .text (.broken _) => none
  | .bytes bs => Yaml.decode? bs

/-- The reader gives up on the text of a policy, which is neither read nor refused. -/
def Source.GivesUp (s : Source) (a : Abort) : Prop :=
  ∃ cs, s.characters? = some cs ∧ Yaml.read cs = .error (.abort a)

/-- The text of a policy holds what can make its reader give up. -/
def Source.Stops (s : Source) (a : Abort) : Prop := ∃ cs, s.characters? = some cs ∧ Yaml.Stops cs a

theorem value_eq_abort_iff : s.value = .error (.abort a) ↔ s.GivesUp a := by
  unfold Source.GivesUp
  cases s with
  | text t => cases t <;> simp [Source.value, Source.characters?]
  | bytes bs => cases hd : Yaml.decode? bs <;> simp [Source.value, Source.characters?, Yaml.readBytes, hd]

/-- A reader that gives up has a reason, which lies in the text. -/
theorem Source.GivesUp.stops (h : s.GivesUp a) : s.Stops a := by
  obtain ⟨cs, hcs, hread⟩ := h
  exact ⟨cs, hcs, (ends_iff.mp (read_ends cs)).2 a hread⟩

/-- A scalar in the mappings of a policy is unreadable under its tag. -/
def Source.HasUnreadable (s : Source) (a : Abort) : Prop :=
  ∃ cs root g id tag text, s.characters? = some cs ∧ Yaml.graph cs = .ok (some (root, g)) ∧
    g.ScalarIn root id ∧ g.node id = .scalar tag text ∧ Unreadable tag text a

theorem value_eq_ok_iff : s.value = .ok v ↔ ∃ cs, s.characters? = some cs ∧ Yaml.read cs = .ok v := by
  cases s with
  | text t => cases t <;> simp [Source.value, Source.characters?]
  | bytes bs => cases hd : Yaml.decode? bs <;> simp [Source.value, Source.characters?, Yaml.readBytes, hd]

/-- A policy with such a scalar has no value. -/
theorem Source.HasUnreadable.value_ne_ok (h : s.HasUnreadable a) : s.value ≠ .ok v := by
  obtain ⟨cs, root, g, id, tag, text, hcs, hg, hid, hn, hu⟩ := h
  intro hv
  obtain ⟨cs', hcs', hread⟩ := value_eq_ok_iff.mp hv
  rw [hcs] at hcs'
  cases hcs'
  obtain ⟨read, hr, habort⟩ := hu.exists_reader
  obtain ⟨w, hw⟩ := readsAs_of_read hg hread hid ⟨tag, text, read, hn, hr⟩
  rw [(readsAs_iff hn hr).mp hw] at habort
  cases habort

theorem value_isDocument (h : s.value = .ok v) : IsDocument v := by
  obtain ⟨cs, -, hread⟩ := value_eq_ok_iff.mp h
  exact (ends_iff.mp (read_ends cs)).1 v hread

/-- Keys that are texts, as those of frozen mappings are. -/
def IsText (v : Value) : Prop := ∃ t : RawText, v = t.toValue

theorem asPairs?_texts {items : List Value} (h : ∀ item ∈ items, IsPair item) :
    ∃ pairs, NameKey.asPairs? items = some pairs ∧ ∀ e ∈ pairs, IsText e.1 := by
  induction items with
  | nil => exact ⟨[], rfl, by simp⟩
  | cons item rest ih =>
    obtain ⟨s, c, rfl, _⟩ := h item (by simp)
    obtain ⟨pairs, hp, ht⟩ := ih fun item hi => h item (by simp [hi])
    refine ⟨(s.toValue, c) :: pairs, by simp [NameKey.asPairs?, hp], ?_⟩
    intro e he
    rcases List.mem_cons.mp he with rfl | he
    · exact ⟨s, rfl⟩
    · exact ht e he

theorem refuseUnknown_ne_wrongType {unknown : List Value} (h : ∀ k ∈ unknown, IsText k) :
    NameKey.refuseUnknown unknown ≠ .error .wrongType := by
  have hsort : (Value.sort? unknown).isSome := by
    refine Value.isSome_sort? ?_ h
    rintro v w ⟨s, rfl⟩ ⟨t, rfl⟩
    cases s <;> cases t <;> rfl
  obtain ⟨sorted, hs⟩ := Option.isSome_iff_exists.mp hsort
  unfold NameKey.refuseUnknown
  rw [hs]
  split
  · simp
  · dsimp only
    split <;> simp [NameKey.tooManyDigits]

theorem partText_ne_wrongType (key : String) :
    NameKey.partText entries key ≠ .error .wrongType := by
  unfold NameKey.partText
  split
  · simp
  · split
    · split <;> simp [NameKey.tooManyDigits]
    · simp

theorem ofEntries_ne_wrongType (h : ∀ e ∈ entries, IsText e.1) :
    NameKey.ofEntries entries ≠ .error .wrongType := by
  have hunknown : ∀ k ∈ (entries.map (·.1)).filter fun k => !NameKey.isKnown k, IsText k := by
    intro k hk
    obtain ⟨e, he, rfl⟩ := List.mem_map.mp (List.mem_filter.mp hk).1
    exact h e he
  refine bind_ne_error (refuseUnknown_ne_wrongType hunknown) fun _ => ?_
  refine bind_ne_error (partText_ne_wrongType "name") fun name => ?_
  refine bind_ne_error (partText_ne_wrongType "namespace") fun namespaceName => ?_
  intro h
  cases h

theorem malformed_ne_wrongType (k : Value) : NameKey.malformed k ≠ .wrongType := by
  unfold NameKey.malformed
  split <;> simp [NameKey.tooManyDigits]

/-- A key of a document can be looked into. -/
theorem read_ne_wrongType (h : IsKey k) : NameKey.read k ≠ .error .wrongType := by
  unfold NameKey.read
  split
  · simp
  · exact h.elim
  · next items =>
    obtain ⟨pairs, hp, ht⟩ := asPairs?_texts h
    rw [hp]
    dsimp only
    rw [if_pos]
    · exact ofEntries_ne_wrongType (Value.forall_ofEntries ht)
    · rw [List.all_eq_true]
      intro e he
      obtain ⟨s, hs⟩ := ht e he
      cases s <;> simp [hs, RawText.toValue, Value.isHashable]
  · split
    · simp
    · simp [malformed_ne_wrongType]
  · split
    · simp
    · simp [malformed_ne_wrongType]
  · simp [malformed_ne_wrongType]

theorem nameKeys_ne_wrongType (h : ∀ e ∈ entries, IsKey e.1) :
    Document.nameKeys entries ≠ .error .wrongType := by
  unfold Document.nameKeys
  refine bind_ne_error (mapM_ne_error fun e he => ?_) fun named => ?_
  · refine bind_ne_error (read_ne_wrongType (h e he)) fun t => ?_
    intro h
    cases h
  · intro h
    cases h

theorem readNames_ok (h : HasKeys v) : ∃ c, Document.readNames v = .ok c := by
  unfold Document.readNames
  split
  · exact ⟨_, rfl⟩
  · split
    · exact ⟨_, rfl⟩
    · exact ⟨_, rfl⟩
    · next hk => exact (nameKeys_ne_wrongType h hk).elim
  · exact ⟨_, rfl⟩

theorem mem_of_named? {names : List String} {n : String}
    (h : Validation.named? entries names = some (n, v)) : ∃ k, (k, v) ∈ entries := by
  obtain ⟨m, _, hm⟩ := List.exists_of_findSome?_eq_some h
  obtain ⟨c, hc, he⟩ := Option.map_eq_some_iff.mp hm
  cases he
  obtain ⟨e, he, rfl⟩ := Option.map_eq_some_iff.mp hc
  exact ⟨e.1, List.mem_of_find?_eq_some he⟩

theorem namesField_ok (h : ∀ e ∈ entries, HasKeys e.2) :
    ∃ c, Document.namesField entries = .ok c := by
  unfold Document.namesField
  split
  · exact ⟨_, rfl⟩
  · next n v hn =>
    obtain ⟨k, hk⟩ := mem_of_named? hn
    obtain ⟨c, hc⟩ := readNames_ok (h _ hk)
    exact ⟨c.under (.key n), by rw [hc]; rfl⟩

theorem document_ofEntries_ok (h : ∀ e ∈ entries, HasKeys e.2) :
    ∃ c, Document.ofEntries entries = .ok c := by
  obtain ⟨c, hc⟩ := namesField_ok h
  unfold Document.ofEntries
  rw [hc]
  exact ⟨_, rfl⟩

theorem readEntries_isAnswer (h : ∀ e ∈ entries, HasKeys e.2) :
    Stop.IsAnswer (readDocument.readEntries entries) := by
  obtain ⟨c, hc⟩ := document_ofEntries_ok h
  unfold readDocument.readEntries
  rw [hc]
  cases c <;> trivial

theorem readDocument_isAnswer (h : IsDocument v) : Stop.IsAnswer (readDocument v) := by
  unfold readDocument
  split
  · exact readEntries_isAnswer (by simp)
  · exact readEntries_isAnswer h
  · trivial

/-- What follows the reading of the text always has an answer. -/
theorem generationOf_isAnswer (h : IsDocument v) : Stop.IsAnswer (generationOf v source?) := by
  have hd := readDocument_isAnswer h
  unfold generationOf
  cases hr : readDocument v with
  | error stop =>
    rw [hr] at hd
    cases stop <;> exact hd
  | ok d =>
    change Stop.IsAnswer ((d.generation source?).mapError Stop.fault)
    cases d.generation source? <;> trivial

/-- Reading a policy goes without an answer exactly if the reader of its text gives up. -/
theorem parse_eq_abort_iff : parse s source? = .error (.abort a) ↔ s.GivesUp a := by
  rw [← value_eq_abort_iff]
  unfold parse
  cases hs : s.value with
  | ok v =>
    have hanswer : Stop.IsAnswer (generationOf v source?) :=
      generationOf_isAnswer (value_isDocument hs)
    simpa using Stop.isAnswer_iff.mp hanswer a
  | error f => cases f <;> simp

/-- A policy with an unreadable scalar in its mappings is not loaded. -/
theorem parse_ne_ok_of_hasUnreadable {gen : Generation} (h : s.HasUnreadable a) :
    parse s source? ≠ .ok gen := by
  intro hp
  unfold parse at hp
  split at hp
  · cases hp
  · cases hp
  · next v hv => exact h.value_ne_ok hv

/-- A word that is no truth value is neither read nor refused under the tag of truth values. -/
theorem parse_maybe_unanswered :
    ¬ ((∃ g, parse (.text "!!bool maybe") none = .ok g) ∨
      ∃ f, parse (.text "!!bool maybe") none = .error (.fault f)) := by
  rw [← Stop.isAnswer_iff_exists]
  decide +kernel

end CeilingGate.Policy
