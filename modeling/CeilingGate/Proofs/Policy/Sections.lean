import CeilingGate.Policy.Loader
import CeilingGate.Proofs.Validation.Checked
import CeilingGate.Proofs.Value.Keys

/-! What the two override sections of a document are read from. The keys of the blocks that are read are
what the keys of the section spell, and none of them stands twice. -/
namespace CeilingGate.Policy

open CeilingGate.Validation

variable {d : Document} {v : Value} {entries : Entries} {name : RawText} {t : Target}
  {blocks : List (RawText × Block)} {named : List (Target × Block)} {c : Checked Document}

/-- The parts that a document is put together from. -/
theorem document_ofEntries (h : Document.ofEntries entries = .ok (.ok d)) :
    Document.namesField entries = .ok (.ok d.names) ∧
      field entries ["customNamespaces", "namespaces"] [] Document.readNamespaces =
        .ok d.namespaces ∧
      Block.ofEntries entries = .ok d.top := by
  obtain ⟨names, hnames, h⟩ := bind_eq_ok.mp h
  obtain ⟨build, ns, hbuild, hns, rfl⟩ := apply_eq_ok.mp (Except.ok.inj h)
  obtain ⟨build', blocks, hbuild', hblocks, rfl⟩ := apply_eq_ok.mp hbuild
  obtain ⟨top, htop, rfl⟩ := checked_map_eq_ok.mp hbuild'
  exact ⟨hns ▸ hnames, hblocks, htop⟩

theorem document_of_dict (h : readDocument (.dict entries) = .ok d) :
    Document.ofEntries entries = .ok (.ok d) := by
  unfold readDocument readDocument.readEntries at h
  dsimp only at h
  split at h
  · cases h
  · cases h
  · next hd =>
    cases h
    exact hd

/-- A document that is read is put together from entries. -/
theorem readDocument_eq_ok (h : readDocument v = .ok d) :
    ∃ entries, Document.ofEntries entries = .ok (.ok d) := by
  cases v with
  | null => exact ⟨[], document_of_dict h⟩
  | dict entries => exact ⟨entries, document_of_dict h⟩
  | _ => cases h

theorem nodup_readMapping {read : Value → Checked Block} (h : readMapping read v = .ok blocks) :
    (blocks.map (·.1)).Nodup := by
  unfold readMapping at h
  split at h
  · obtain ⟨read, _, rfl⟩ := checked_map_eq_ok.mp h
    exact Keyed.nodup_keys_ofList read
  · cases h

theorem nodup_readNamespaces (h : Document.readNamespaces v = .ok blocks) :
    (blocks.map (·.1)).Nodup := by
  unfold Document.readNamespaces at h
  split at h
  · cases h
    exact List.nodup_nil
  · split at h
    · exact nodup_readMapping h
    · cases h
  · cases h

/-- Blocks of names stand under the keys that were given. -/
theorem keys_readNameBlocks {parts : List (Target × Value)}
    (h : Document.readNameBlocks parts = .ok named) : named.map (·.1) = parts.map (·.1) := by
  refine keys_of_all ?_ h
  rintro ⟨t, v⟩ y hy
  obtain ⟨b, _, rfl⟩ := checked_map_eq_ok.mp (under_eq_ok.mp hy)
  rfl

theorem forall₂_of_mapM {ε α β κ : Type} {f : α → Except ε κ} {parts : List (α × β)}
    {done : List (κ × β)}
    (h : (parts.mapM fun (a, b) => do
      let k ← f a
      return (k, b)) = .ok done) :
    List.Forall₂ (fun e e' => f e.1 = .ok e'.1 ∧ e.2 = e'.2) parts done := by
  refine (mapM_eq_ok.mp h).imp ?_
  rintro ⟨a, b⟩ e he
  obtain ⟨k, hk, he⟩ := bind_eq_ok.mp he
  cases he
  exact ⟨hk, rfl⟩

/-- The names that a section gives are read from its keys, one after the other. -/
theorem readNames_dict_eq_ok (h : Document.readNames (.dict entries) = .ok (.ok named)) :
    ∃ parts, List.Forall₂ (fun e p => NameKey.read e.1 = .ok p.1 ∧ e.2 = p.2) entries parts ∧
      Document.readNameBlocks (Keyed.ofList parts) = .ok named := by
  unfold Document.readNames at h
  dsimp only at h
  split at h
  · next keyed hkeyed =>
    obtain ⟨parts, hparts, hlist⟩ := bind_eq_ok.mp hkeyed
    cases hlist
    exact ⟨parts, forall₂_of_mapM hparts, Except.ok.inj h⟩
  · cases h
  · cases h

theorem nodup_readNames (h : Document.readNames v = .ok (.ok named)) :
    (named.map (·.1)).Nodup := by
  cases v with
  | null =>
    cases h
    exact List.nodup_nil
  | dict entries =>
    obtain ⟨parts, _, hblocks⟩ := readNames_dict_eq_ok h
    rw [keys_readNameBlocks hblocks]
    exact Keyed.nodup_keys_ofList parts
  | _ => cases h

theorem namesField_eq_ok (h : Document.namesField entries = .ok (.ok named)) :
    (named? entries ["customNames", "names"] = none ∧ named = []) ∨
      ∃ n v, named? entries ["customNames", "names"] = some (n, v) ∧
        Document.readNames v = .ok (.ok named) := by
  unfold Document.namesField at h
  split at h
  · next hn =>
    cases h
    exact Or.inl ⟨hn, rfl⟩
  · next n v hn =>
    obtain ⟨c, hc, hnamed⟩ := map_eq_ok.mp h
    exact Or.inr ⟨n, v, hn, by rw [hc, under_eq_ok.mp hnamed]⟩

/-- No namespace and no name stands twice in a document that was read. -/
theorem nodup_of_readDocument (h : readDocument v = .ok d) :
    (d.namespaces.map (·.1)).Nodup ∧ (d.names.map (·.1)).Nodup := by
  obtain ⟨entries, h⟩ := readDocument_eq_ok h
  obtain ⟨hnames, hnamespaces, _⟩ := document_ofEntries h
  constructor
  · rcases field_eq_ok hnamespaces with ⟨_, he⟩ | ⟨_, _, _, hread⟩
    · simp [he]
    · exact nodup_readNamespaces hread
  · rcases namesField_eq_ok hnames with ⟨_, he⟩ | ⟨_, _, _, hread⟩
    · simp [he]
    · exact nodup_readNames hread

/-! ## The keys of a section -/

variable {section' : Entries} {e : Value × Value}

theorem mem_keys_of_forall₂ {ε α β κ : Type} {f : α → Except ε κ} {parts : List (α × β)}
    {done : List (κ × β)} (h : List.Forall₂ (fun e e' => f e.1 = .ok e'.1 ∧ e.2 = e'.2) parts done)
    (k : κ) : k ∈ done.map (·.1) ↔ ∃ p ∈ parts, f p.1 = .ok k := by
  induction h with
  | nil => simp
  | cons he _ ih =>
    simp only [List.map_cons, List.mem_cons, exists_eq_or_imp, he.1, ih, Except.ok.injEq,
      eq_comm (a := k)]

/-- The names of a section are those that its keys spell. -/
theorem mem_readNames (h : Document.readNames (.dict entries) = .ok (.ok named)) :
    t ∈ named.map (·.1) ↔ ∃ e ∈ entries, NameKey.read e.1 = .ok t := by
  obtain ⟨parts, hparts, hblocks⟩ := readNames_dict_eq_ok h
  rw [keys_readNameBlocks hblocks, Keyed.mem_keys_ofList, mem_keys_of_forall₂ hparts]

/-- The keys of a mapping of blocks are the texts that its keys are read as. -/
theorem mem_readMapping {read : Value → Checked Block}
    (h : readMapping read (.dict entries) = .ok blocks) :
    name ∈ blocks.map (·.1) ↔ ∃ e ∈ entries, readText e.1 = .ok name := by
  obtain ⟨done, hdone, rfl⟩ := checked_map_eq_ok.mp h
  clear h
  rw [Keyed.mem_keys_ofList]
  rw [all_eq_ok, List.forall₂_map_left_iff] at hdone
  induction hdone with
  | nil => simp
  | cons hy _ ih =>
    rw [List.map_cons, List.mem_cons, ih]
    simp only [List.mem_cons, exists_eq_or_imp, (readEntry_eq_ok hy).1, Except.ok.injEq,
      eq_comm (a := name)]

theorem keys_of_namedEntries {named : Entries}
    (h : (entries.mapM fun (k, v) => k.text?.map fun t => (t.toValue, v)) = some named) :
    named.map (·.1) = entries.filterMap fun e => e.1.text?.map RawText.toValue := by
  induction entries generalizing named with
  | nil =>
    cases h
    rfl
  | cons e rest ih =>
    rw [List.mapM_cons] at h
    obtain ⟨first, hfirst, h⟩ := Option.bind_eq_some_iff.mp h
    obtain ⟨others, hothers, h⟩ := Option.bind_eq_some_iff.mp h
    obtain ⟨t, ht, rfl⟩ := Option.map_eq_some_iff.mp hfirst
    cases h
    simp [ht, ih hothers]

/-- The namespaces of a section are the texts of its keys. -/
theorem mem_readNamespaces (h : Document.readNamespaces (.dict entries) = .ok blocks) :
    name ∈ blocks.map (·.1) ↔ ∃ e ∈ entries, e.1.text? = some name := by
  unfold Document.readNamespaces Document.namespaceKeys at h
  dsimp only at h
  split at h
  · next named hnamed =>
    split at hnamed
    · next spelled hspelled =>
      cases hnamed
      have hkeys := keys_of_namedEntries hspelled
      rw [mem_readMapping h]
      constructor
      · rintro ⟨e, he, hname⟩
        have hmem : ∀ e ∈ Value.ofEntries spelled, e.1 ∈ spelled.map (·.1) :=
          Value.forall_ofEntries fun e he => List.mem_map_of_mem he
        have hkey := hmem e he
        rw [hkeys] at hkey
        obtain ⟨e', he', hkey⟩ := List.mem_filterMap.mp hkey
        obtain ⟨t, ht, htv⟩ := Option.map_eq_some_iff.mp hkey
        rw [← htv, readText_toValue] at hname
        exact ⟨e', he', ht.trans (congrArg some (Except.ok.inj hname))⟩
      · rintro ⟨e, he, hkey⟩
        have hmem : name.toValue ∈ spelled.map (·.1) := by
          rw [hkeys]
          exact List.mem_filterMap.mpr ⟨e, he, by rw [hkey]; rfl⟩
        obtain ⟨⟨k, c⟩, hk, rfl⟩ := List.mem_map.mp hmem
        obtain ⟨k', hk', hsame⟩ := Value.exists_of_ofEntries hk
        obtain ⟨e', he', rfl⟩ := List.mem_map.mp hk'
        refine ⟨e', he', ?_⟩
        have htext : e'.1 = name.toValue := hsame.elim id Value.sameKey_toValue_iff.mp
        rw [htext, readText_toValue]
    · cases hnamed
  · cases h

/-! ## The sections of a document -/

theorem named?_of_find? {n : String} {names : List String} (h : Value.find? entries n = some v) :
    named? entries (n :: names) = some (n, v) := by
  simp [named?, h]

/-- The namespaces of a document are the texts of the keys of its section. -/
theorem mem_namespaces (h : readDocument (.dict entries) = .ok d)
    (hs : Value.find? entries "customNamespaces" = some (.dict section')) :
    name ∈ d.namespaces.map (·.1) ↔
      ∃ e ∈ section', e.1.text? = some name := by
  have hnamed : named? entries ["customNamespaces", "namespaces"] = _ := named?_of_find? hs
  rcases field_eq_ok (document_ofEntries (document_of_dict h)).2.1 with ⟨hnone, _⟩ | ⟨n, v, hv, hread⟩
  · rw [hnamed] at hnone
    cases hnone
  · rw [hnamed] at hv
    cases hv
    exact mem_readNamespaces hread

/-- The names of a document are read from its section of them. -/
theorem readNames_of_find? (h : readDocument (.dict entries) = .ok d)
    (hs : Value.find? entries "customNames" = some v) :
    Document.readNames v = .ok (.ok d.names) := by
  have hnamed : named? entries ["customNames", "names"] = _ := named?_of_find? hs
  rcases namesField_eq_ok (document_ofEntries (document_of_dict h)).1 with
    ⟨hnone, _⟩ | ⟨n, v', hv, hread⟩
  · rw [hnamed] at hnone
    cases hnone
  · rw [hnamed] at hv
    cases hv
    exact hread

/-- The names of a document are those that the keys of its section spell. -/
theorem mem_names (h : readDocument (.dict entries) = .ok d)
    (hs : Value.find? entries "customNames" = some (.dict section')) :
    t ∈ d.names.map (·.1) ↔ ∃ e ∈ section', NameKey.read e.1 = .ok t :=
  mem_readNames (readNames_of_find? h hs)

end CeilingGate.Policy
