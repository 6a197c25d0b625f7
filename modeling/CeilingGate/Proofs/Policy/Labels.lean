import CeilingGate.Proofs.Policy.Answers
import CeilingGate.Proofs.Policy.Refused
import CeilingGate.Proofs.Yaml.Labels
import CeilingGate.Proofs.Yaml.Sections

/-! Overrides whose keys are labels that stand plain: which of them are still found under the label when
the policy has been loaded. -/
namespace CeilingGate.Policy

open CeilingGate.Yaml

variable {k n ns cs : List Char} {v w a b a' b' : Value} {entries section' : Validation.Entries}
  {key : String} {s : Source} {source? : Option RawText} {gen : Generation} {g : Graph}
  {root sid kid cid : NodeId}

/-! ## Keys of namespaces -/

/-- A key that is the same as that of a label is a scalar. -/
theorem isLeaf_of_sameKey (hv : LabelReading k v) (hw : IsKey w) (hs : Value.sameKey w v = true) :
    IsLeaf w := by
  cases w with
  | tuple items => cases hv <;> cases hs
  | _ => exact hw

theorem keyText_iff (h : IsLabel k) (hv : LabelReading k v) (hw : IsKey w)
    (hs : Value.sameKey w v = true) :
    w.text? = some (.plain (String.ofList k)) ↔ Keeps k v w :=
  keeps_iff h hv (isLeaf_of_sameKey hv hw hs) hs

/-! ## Keys of names -/

/-- A name or a namespace in the key of a name override is kept unless it is zero, which counts as
missing. -/
structure KeepsPart (k : List Char) (v w : Value) : Prop extends Keeps k v w where
  zero : k ≠ ['0']

theorem isTruthy_iff (h : IsLabel k) (hv : LabelReading k v) (hs : Value.sameKey w v = true)
    (hk : Keeps k v w) : w.isTruthy = true ↔ k ≠ ['0'] := by
  have hzero : Form.isInt k = false → k ≠ ['0'] := by
    rintro hi rfl
    exact absurd hi (by decide)
  cases hv with
  | text hb hn hi =>
    rw [Value.sameKey_text_iff.mp hs]
    exact iff_of_true (by simp [Value.isTruthy, h.ne_nil]) (hzero hi)
  | date hb hn hi hd =>
    rw [eq_of_sameKey_date hs]
    exact iff_of_true rfl (hzero hi)
  | bool hb => exact absurd hk.bool (by simp [hb])
  | null hn => exact absurd hk.null (by simp [hn])
  | @decimal n hb hn hi hd ht =>
    have htext := Scalar.toString_of_text? ht
    rw [(hk.int hi).2]
    have hiff : n = 0 ↔ k = ['0'] := by
      constructor
      · rintro rfl
        exact (String.ofList_injective (htext.symm : String.ofList k = String.ofList ['0']))
      · rintro rfl
        exact Int.repr_injective htext
    simpa [Value.isTruthy] using not_congr hiff
  | based hi hd => exact absurd (hk.int hi).1 (by simp [hd])

theorem partText_iff (h : IsLabel k) (hv : LabelReading k v) (hw : IsLeaf w)
    (hs : Value.sameKey w v = true) (hf : Value.find? entries key = some w) :
    NameKey.partText entries key = .ok (String.ofList k) ↔ KeepsPart k v w := by
  have hkeeps := keeps_iff h hv hw hs
  unfold NameKey.partText
  rw [hf]
  dsimp only
  split
  · next ht =>
    have hpart : KeepsPart k v w ↔ w.text? = some (.plain (String.ofList k)) := by
      rw [hkeeps]
      exact ⟨fun hk => hk.toKeeps, fun hk => ⟨hk, (isTruthy_iff h hv hs hk).mp ht⟩⟩
    rw [hpart]
    cases w.text? <;> simp
  · next ht =>
    refine iff_of_false ?_ fun hk => ht ((isTruthy_iff h hv hs hk.toKeeps).mpr hk.zero)
    intro he
    have hempty : String.ofList k = "" := (RawText.plain.inj (Except.ok.inj he)).symm
    exact h.ne_nil (by simpa using hempty)

theorem read_nameKey {t : Target} :
    NameKey.read (nameKey a b) = .ok t ↔
      NameKey.partText (nameEntries a b) "name" = .ok t.name ∧
        NameKey.partText (nameEntries a b) "namespace" = .ok t.namespaceName := by
  have hread : NameKey.read (nameKey a b) = NameKey.ofEntries (nameEntries a b) := rfl
  have hknown : NameKey.refuseUnknown
      (((nameEntries a b).map (·.1)).filter fun k => !NameKey.isKnown k) = .ok () := rfl
  rw [hread, NameKey.ofEntries, hknown]
  constructor
  · intro h
    obtain ⟨_, _, h⟩ := bind_eq_ok.mp h
    obtain ⟨name, hname, h⟩ := bind_eq_ok.mp h
    obtain ⟨namespaceName, hns, h⟩ := bind_eq_ok.mp h
    cases h
    exact ⟨hname, hns⟩
  · rintro ⟨hname, hns⟩
    rw [hname, hns]
    rfl

theorem isPair_of_sameKey {key : String} (hw : IsPair w)
    (hs : Value.sameKey w (.tuple [.text key, a]) = true) :
    ∃ a', w = .tuple [.text key, a'] ∧ IsLeaf a' ∧ Value.sameKey a' a = true := by
  obtain ⟨t, a', rfl, ha⟩ := hw
  obtain ⟨items, hitems, hs⟩ := Value.sameKey_tuple_iff.mp hs
  cases hitems
  obtain ⟨_, _, hcons, htext, hrest⟩ := Value.sameKeys_cons_iff.mp hs
  cases hcons
  obtain ⟨_, _, hcons, hsame, _⟩ := Value.sameKeys_cons_iff.mp hrest
  cases hcons
  exact ⟨a', by rw [Value.sameKey_text_iff.mp htext], ha, hsame⟩

theorem sameKey_nameKey (hw : IsKey w) (hs : Value.sameKey w (nameKey a b) = true) :
    ∃ a' b', w = nameKey a' b' ∧ IsLeaf a' ∧ IsLeaf b' ∧ Value.sameKey a' a = true ∧
      Value.sameKey b' b = true := by
  obtain ⟨items, rfl, hitems⟩ := Value.sameKey_tuple_iff.mp hs
  obtain ⟨first, rest, rfl, hfirst, hrest⟩ := Value.sameKeys_cons_iff.mp hitems
  obtain ⟨second, rest', rfl, hsecond, hnil⟩ := Value.sameKeys_cons_iff.mp hrest
  obtain rfl := Value.sameKeys_nil_iff.mp hnil
  obtain ⟨a', rfl, ha, hsame⟩ := isPair_of_sameKey (hw first (by simp)) hfirst
  obtain ⟨b', rfl, hb, hsame'⟩ := isPair_of_sameKey (hw second (by simp)) hsecond
  exact ⟨a', b', rfl, ha, hb, hsame, hsame'⟩

theorem nameKey_self (ha : Value.sameKey a a = true) (hb : Value.sameKey b b = true) :
    Value.sameKey (nameKey a b) (nameKey a b) = true := by
  simp [nameKey, Value.sameKey, Value.sameKeys, Value.sameScalar, Value.toNumeral?, ha, hb]

theorem read_nameKey_iff (hn : IsLabel n) (hns : IsLabel ns) (hv : LabelReading n v)
    (hv' : LabelReading ns v') (hw : IsKey w) (hs : Value.sameKey w (nameKey v v') = true) :
    NameKey.read w = .ok ⟨String.ofList n, String.ofList ns⟩ ↔
      ∃ a b, w = nameKey a b ∧ KeepsPart n v a ∧ KeepsPart ns v' b := by
  obtain ⟨a, b, rfl, ha, hb, hsame, hsame'⟩ := sameKey_nameKey hw hs
  have hname : Value.find? (nameEntries a b) "name" = some a := rfl
  have hnamespace : Value.find? (nameEntries a b) "namespace" = some b := rfl
  rw [read_nameKey, partText_iff hn hv ha hsame hname, partText_iff hns hv' hb hsame' hnamespace]
  constructor
  · rintro ⟨hk, hk'⟩
    exact ⟨a, b, rfl, hk, hk'⟩
  · rintro ⟨_, _, he, hk, hk'⟩
    cases he
    exact ⟨hk, hk'⟩

/-! ## Sections of loaded policies -/

/-- The mapping under a text key of a policy's value. -/
def Source.HasSection (s : Source) (name : String) (section' : Validation.Entries) : Prop :=
  ∃ top, s.value = .ok (.dict top) ∧ Value.find? top name = some (.dict section')

theorem value_of_characters? (hc : s.characters? = some cs) : s.value = Yaml.read cs := by
  cases s with
  | text t =>
    cases t with
    | plain t =>
      cases hc
      rfl
    | broken b => cases hc
  | bytes bs =>
    have hd : decode? bs = some cs := hc
    simp [Source.value, readBytes, hd]

/-- The generation of a policy has the keys of its document. -/
theorem document_of_parse (hv : s.value = .ok v) (hp : parse s source? = .ok gen) :
    ∃ d, readDocument v = .ok d ∧ gen.namespaces.map (·.1) = d.namespaces.map (·.1) ∧
      gen.names.map (·.1) = d.names.map (·.1) := by
  unfold parse at hp
  rw [hv] at hp
  obtain ⟨d, hd, hgen⟩ := bind_eq_ok.mp hp
  have hgen := mapError_eq_ok.mp hgen
  exact ⟨d, hd, generation_namespaces hgen, generation_names hgen⟩

/-- A section of a loaded policy, with a key for each key node that is no merge key. -/
theorem section_of_parse {name : String} (hc : s.characters? = some cs) (hp : parse s source? = .ok gen)
    (hg : graph cs = .ok (some (root, g))) (hs : g.HasSection root name sid) :
    ∃ section', s.HasSection name section' ∧ (∀ e ∈ section', IsKey e.1) ∧
      ∀ kid cid, (kid, cid) ∈ g.own sid →
        ∃ e ∈ section', ∃ k, IsKeyOf g kid k ∧ (e.1 = k ∨ Value.sameKey e.1 k = true) := by
  have hvalue : ∃ v, s.value = .ok v := by
    unfold parse at hp
    cases hv : s.value with
    | ok v => exact ⟨v, rfl⟩
    | error f => cases f <;> (rw [hv] at hp; cases hp)
  obtain ⟨v, hv⟩ := hvalue
  have hread : Yaml.read cs = .ok v := by rw [← value_of_characters? hc, hv]
  obtain ⟨top, section', rfl, hfind, hkeys⟩ := read_section hg hread hs
  refine ⟨section', ⟨top, hv, hfind⟩, ?_, hkeys⟩
  obtain ⟨e, he, hsection⟩ := Option.map_eq_some_iff.mp hfind
  have hdoc : HasKeys e.2 := value_isDocument hv e (List.mem_of_find?_eq_some he)
  rw [hsection] at hdoc
  exact hdoc

/-- Keys that are the same as a given one are told apart from the others. -/
theorem exists_key_iff {P Q : Value → Prop} (hkeys : ∀ e ∈ section', IsKey e.1)
    (h : ∀ w, IsKey w → Value.sameKey w v = true → (P w ↔ Q w)) :
    (∃ e ∈ section', P e.1) ↔
      (∃ e ∈ section', Value.sameKey e.1 v = true ∧ Q e.1) ∨
        ∃ e ∈ section', ¬ Value.sameKey e.1 v = true ∧ P e.1 := by
  constructor
  · rintro ⟨e, he, hP⟩
    by_cases hs : Value.sameKey e.1 v = true
    · exact Or.inl ⟨e, he, hs, (h _ (hkeys e he) hs).mp hP⟩
    · exact Or.inr ⟨e, he, hs, hP⟩
  · rintro (⟨e, he, hs, hQ⟩ | ⟨e, he, _, hP⟩)
    · exact ⟨e, he, (h _ (hkeys e he) hs).mpr hQ⟩
    · exact ⟨e, he, hP⟩

theorem own_of_label (he : (kid, cid) ∈ g.entries sid) (hp : g.IsPlainScalar kid k)
    (hk : IsLabel k) : (kid, cid) ∈ g.own sid :=
  List.mem_filter.mpr ⟨he, by simp [isMerge_label (e := (kid, cid)) hp hk]⟩

theorem own_of_name (he : (kid, cid) ∈ g.entries sid) (hp : g.IsPlainName kid n ns) :
    (kid, cid) ∈ g.own sid := by
  obtain ⟨_, _, _, _, hnode, _⟩ := hp
  refine List.mem_filter.mpr ⟨he, ?_⟩
  unfold Graph.isMerge
  rw [hnode]
  rfl

/-- A label that stands plain as a key of namespaces, or two that stand plain in a key of names, are found
in the generation exactly if their key keeps them or another key of the section is turned into them.
A key keeps all labels but truth values, `null` and integers; of these it keeps the decimal ones, unless
the same number in another spelling came before them or, in keys of names, they are zero. -/
theorem labels_kept_iff (hc : s.characters? = some cs) (hp : parse s source? = .ok gen)
    (hg : graph cs = .ok (some (root, g))) :
    (∀ sid kid cid k, g.HasSection root "customNamespaces" sid → (kid, cid) ∈ g.entries sid →
      g.IsPlainScalar kid k → IsLabel k →
        ∃ section' v, s.HasSection "customNamespaces" section' ∧ IsPlainValue k v ∧
          (∃ e ∈ section', Value.sameKey e.1 v = true) ∧
          (.plain (String.ofList k) ∈ gen.namespaces.map (·.1) ↔
            (∃ e ∈ section', Value.sameKey e.1 v = true ∧ Keeps k v e.1) ∨
              ∃ e ∈ section', ¬ Value.sameKey e.1 v = true ∧
                e.1.text? = some (.plain (String.ofList k)))) ∧
    ∀ sid kid cid n ns, g.HasSection root "customNames" sid → (kid, cid) ∈ g.entries sid →
      g.IsPlainName kid n ns → IsLabel n → IsLabel ns →
        ∃ section' v v', s.HasSection "customNames" section' ∧ IsPlainValue n v ∧
          IsPlainValue ns v' ∧ (∃ e ∈ section', Value.sameKey e.1 (nameKey v v') = true) ∧
          (⟨String.ofList n, String.ofList ns⟩ ∈ gen.names.map (·.1) ↔
            (∃ e ∈ section', Value.sameKey e.1 (nameKey v v') = true ∧
              ∃ a b, e.1 = nameKey a b ∧ KeepsPart n v a ∧ KeepsPart ns v' b) ∨
              ∃ e ∈ section', ¬ Value.sameKey e.1 (nameKey v v') = true ∧
                NameKey.read e.1 = .ok ⟨String.ofList n, String.ofList ns⟩) := by
  constructor
  · intro sid kid cid k hs he hplain hk
    obtain ⟨section', hsection, hkeys, hown⟩ := section_of_parse hc hp hg hs
    obtain ⟨e, hmem, v, hkey, hsame⟩ := hown kid cid (own_of_label he hplain hk)
    have hv := isKeyOf_label hkey hplain hk
    have hlabel := label_reading hk hv
    refine ⟨section', v, hsection, hv, ⟨e, hmem, hsame.elim ?_ id⟩, ?_⟩
    · intro h
      rw [h]
      exact hlabel.sameKey_self
    · obtain ⟨top, hvalue, hfind⟩ := hsection
      obtain ⟨d, hd, hnamespaces, _⟩ := document_of_parse hvalue hp
      rw [hnamespaces, mem_namespaces hd hfind]
      exact exists_key_iff hkeys fun w hw hs => keyText_iff hk hlabel hw hs
  · intro sid kid cid n ns hs he hplain hn hns
    obtain ⟨section', hsection, hkeys, hown⟩ := section_of_parse hc hp hg hs
    obtain ⟨e, hmem, key, hkey, hsame⟩ := hown kid cid (own_of_name he hplain)
    obtain ⟨v, v', rfl, hv, hv'⟩ := isKeyOf_name hkey hplain hn hns
    have hlabel := label_reading hn hv
    have hlabel' := label_reading hns hv'
    refine ⟨section', v, v', hsection, hv, hv', ⟨e, hmem, hsame.elim ?_ id⟩, ?_⟩
    · intro h
      rw [h]
      exact nameKey_self hlabel.sameKey_self hlabel'.sameKey_self
    · obtain ⟨top, hvalue, hfind⟩ := hsection
      obtain ⟨d, hd, _, hnames⟩ := document_of_parse hvalue hp
      rw [hnames, mem_names hd hfind]
      exact exists_key_iff hkeys fun w hw hs => read_nameKey_iff hn hns hlabel hlabel' hw hs

/-- A namespace called `on`, and a name and a namespace that are words. -/
def labelText : String := "customNamespaces: \x7bon: \x7b\x7d\x7d\ncustomNames: " ++
  "\x7b\x7bname: web, namespace: shop\x7d: \x7b\x7d\x7d"

def labelGraph : Graph :=
  #[.mapping (standard "map") [(1, 2), (5, 6)],
    .scalar (standard "str") "customNamespaces".toList,
    .mapping (standard "map") [(3, 4)],
    .scalar (standard "bool") "on".toList,
    .mapping (standard "map") [],
    .scalar (standard "str") "customNames".toList,
    .mapping (standard "map") [(7, 12)],
    .mapping (standard "map") [(8, 9), (10, 11)],
    .scalar (standard "str") "name".toList,
    .scalar (standard "str") "web".toList,
    .scalar (standard "str") "namespace".toList,
    .scalar (standard "str") "shop".toList,
    .mapping (standard "map") []]

def openCeiling : Ceiling := ⟨⟨none, none, some .zero, some .zero, none⟩, false⟩

def labelGeneration : Generation :=
  ⟨openCeiling, [(⟨"web", "shop"⟩, openCeiling)], [("True", openCeiling)], none⟩

theorem parse_labelText : parse (.text labelText) none = .ok labelGeneration := by decide +kernel

theorem graph_labelText : graph labelText.toList = .ok (some (0, labelGraph)) := by decide +kernel

theorem isLabel_on : IsLabel "on".toList := ⟨by decide, by decide, by decide, by decide⟩

theorem hasSection_namespaces : labelGraph.HasSection 0 "customNamespaces" 2 := by
  refine ⟨[], 1, [(5, 6)], rfl, rfl, ?_, rfl⟩
  intro e he
  rw [List.mem_singleton.mp he]
  rintro (h | h) <;> exact absurd h (by decide)

theorem labels_kept_iff_labelText :
    parse (.text labelText) none = .ok labelGeneration ∧
      (∃ section' v, (Source.text labelText).HasSection "customNamespaces" section' ∧
        IsPlainValue "on".toList v ∧ ∃ e ∈ section', Value.sameKey e.1 v = true) ∧
      ∃ section' v v', (Source.text labelText).HasSection "customNames" section' ∧
        IsPlainValue "web".toList v ∧ IsPlainValue "shop".toList v' ∧
        ∃ e ∈ section', Value.sameKey e.1 (nameKey v v') = true := by
  obtain ⟨hnamespaces, hnames⟩ :=
    labels_kept_iff (s := .text labelText) rfl parse_labelText graph_labelText
  have hsection : labelGraph.HasSection 0 "customNames" 6 :=
    ⟨[(1, 2)], 5, [], rfl, rfl, by simp, rfl⟩
  have hweb : IsLabel "web".toList := ⟨by decide, by decide, by decide, by decide⟩
  have hshop : IsLabel "shop".toList := ⟨by decide, by decide, by decide, by decide⟩
  have hname : labelGraph.IsPlainName 7 "web".toList "shop".toList :=
    ⟨8, 9, 10, 11, rfl, rfl, rfl, rfl, rfl⟩
  obtain ⟨section', v, hs, hv, hkey, _⟩ :=
    hnamespaces 2 3 4 "on".toList hasSection_namespaces (by decide) rfl isLabel_on
  obtain ⟨section'', w, w', hs', hw, hw', hkey', _⟩ :=
    hnames 6 7 12 "web".toList "shop".toList hsection (by decide) hname hweb hshop
  exact ⟨parse_labelText, ⟨section', v, hs, hv, hkey⟩, section'', w, w', hs', hw, hw', hkey'⟩

/-- The namespace `on` is found under `True` only. -/
theorem label_not_kept :
    ¬ ∀ (s : Source) (cs : List Char) (gen : Generation) (root : NodeId) (g : Graph),
      s.characters? = some cs → parse s none = .ok gen → graph cs = .ok (some (root, g)) →
        ∀ sid kid cid k, g.HasSection root "customNamespaces" sid → (kid, cid) ∈ g.entries sid →
          g.IsPlainScalar kid k → IsLabel k → .plain (String.ofList k) ∈ gen.namespaces.map (·.1) := by
  intro h
  have hon := h (.text labelText) _ _ _ _ rfl parse_labelText graph_labelText 2 3 4 "on".toList
    hasSection_namespaces (by decide) rfl isLabel_on
  exact absurd hon (by decide)

end CeilingGate.Policy
