import CeilingGate.Proofs.Yaml.Faithful
import CeilingGate.Proofs.Yaml.Labels
import CeilingGate.Yaml.Document
import Mathlib.Data.List.Permutation

/-! Sections of documents: mappings under text keys of the root. The value of a document has a key for each
key node of a section; the key of a node that stands plain is what its form makes it. -/
namespace CeilingGate.Yaml

open CeilingGate.Yaml.Graph

variable {g : Graph} {b : Builder} {cs : List Char} {id root kid cid sid : NodeId} {s : String}
  {v : Value} {entries : List (Value × NodeId)} {before after : List (NodeId × NodeId)}

/-- A mapping stands under a text key of the root. Of several such keys the last counts. -/
def Graph.HasSection (g : Graph) (root : NodeId) (s : String) (sid : NodeId) : Prop :=
  ∃ before kid after, g.node root = .mapping (standard "map") (before ++ (kid, sid) :: after) ∧
    g.node kid = .scalar (standard "str") s.toList ∧ (∀ e ∈ after, ¬ g.IsText e.1 s) ∧
    (g.node sid).tag = standard "map"

theorem exists_of_forall₂ {α β : Type} {R : α → β → Prop} {xs : List α} {ys : List β}
    (h : List.Forall₂ R xs ys) : ∀ y ∈ ys, ∃ x ∈ xs, R x y := by
  induction h with
  | nil => simp
  | cons hxy _ ih =>
    intro y hy
    rcases List.mem_cons.mp hy with rfl | hy
    · exact ⟨_, List.mem_cons_self, hxy⟩
    · obtain ⟨x, hx, hxy⟩ := ih y hy
      exact ⟨x, List.mem_cons_of_mem _ hx, hxy⟩

theorem pair_of_forall₂ {α β : Type} {R : α → β → Prop} {x x' : α} {ys : List β}
    (h : List.Forall₂ R [x, x'] ys) : ∃ y y', ys = [y, y'] ∧ R x y ∧ R x' y' := by
  obtain ⟨y, _, hxy, hrest, rfl⟩ := List.forall₂_cons_left_iff.mp h
  obtain ⟨y', _, hxy', hnil, rfl⟩ := List.forall₂_cons_left_iff.mp hrest
  obtain rfl := List.forall₂_nil_left_iff.mp hnil
  exact ⟨y, y', rfl, hxy, hxy'⟩

/-- Cutting related lists at one place. -/
theorem split_of_forall₂ {α β : Type} {R : α → β → Prop} {xs zs : List α} {x : α} {ys : List β}
    (h : List.Forall₂ R (xs ++ x :: zs) ys) :
    ∃ us y vs, ys = us ++ y :: vs ∧ R x y ∧ List.Forall₂ R zs vs := by
  induction xs generalizing ys with
  | nil =>
    cases h with
    | cons hxy hrest => exact ⟨[], _, _, rfl, hxy, hrest⟩
  | cons x' xs ih =>
    cases h with
    | cons _ hrest =>
      obtain ⟨us, y, vs, rfl, hxy, hrest⟩ := ih hrest
      exact ⟨_ :: us, y, vs, rfl, hxy, hrest⟩

namespace Builder

theorem value_of_dict (hc : b.content? id = some (.dict entries)) (depth : Nat) :
    b.value (depth + 1) id = .dict (entries.map fun e => (e.1, b.value depth e.2)) := by
  conv_lhs =>
    unfold value
    rw [hc]

/-- A mapping of a finished document has entries that are a reading of it. -/
theorem Faithful.value_dict (h : Faithful g (fun _ => False) b) (hw : b.waiting = [])
    (hbuilt : b.IsBuilt id) (ht : (g.node id).tag = standard "map") :
    ∃ entries, IsReading g b id entries ∧
      ∀ depth, b.value (depth + 1) id = .dict (entries.map fun e => (e.1, b.value depth e.2)) := by
  have hid : id < b.contents.size := by
    rw [h.size]
    exact lt_size_of_tag (by rw [ht]; decide)
  obtain ⟨c, hc⟩ := Option.isSome_iff_exists.mp (hbuilt hid)
  obtain ⟨entries, rfl, hr⟩ := h.dict id c ht hc (by simp [hw]) (fun h => h)
  exact ⟨entries, hr, fun depth => value_of_dict hc depth⟩

/-- Each key node of a mapping has a key in its reading, in its own spelling or in that of the same
key. -/
theorem IsReading.exists_key (h : IsReading g b id entries) (he : (kid, cid) ∈ g.own id) :
    ∃ e ∈ entries, ∃ k, IsKeyOf g kid k ∧ (e.1 = k ∨ Value.sameKey e.1 k = true) := by
  obtain ⟨g', kvs, hs, hkeys, rfl⟩ := h
  obtain ⟨front, rest, hsplit⟩ := List.append_of_mem (hs.mem_entries he)
  rw [hsplit] at hkeys
  obtain ⟨us, ⟨k, c⟩, vs, rfl, ⟨hk, _⟩, _⟩ := split_of_forall₂ hkeys
  have hmem : (k, c) ∈ us ++ (k, c) :: vs := by simp
  obtain ⟨k', hk', hsame⟩ := Value.exists_of_ofEntries hmem
  obtain ⟨e, he, rfl⟩ := List.mem_map.mp hk'
  exact ⟨e, he, k, hk, hsame⟩

/-- Behind an own entry of a mapping there are but those that were behind it before, and merge keys. -/
theorem split_of_own {g' : Graph} (hs : Steady g g')
    (hown : g.own id = before ++ (kid, cid) :: after) :
    ∃ front rest, g'.entries id = front ++ (kid, cid) :: rest ∧
      ∀ e ∈ rest, e ∈ after ∨ g.isMerge e = true := by
  obtain ⟨merged, hfilter⟩ := hs.own id
  rw [hown, ← List.append_assoc] at hfilter
  obtain ⟨front, back, hentries, _, hback⟩ := List.filter_eq_append_iff.mp hfilter.symm
  obtain ⟨middle, rest, rfl, _, _, hrest⟩ := List.filter_eq_cons_iff.mp hback
  refine ⟨front ++ middle, rest, by rw [hentries, List.append_assoc], ?_⟩
  intro e he
  by_cases hmerge : g.isMerge e = true
  · exact Or.inr hmerge
  · refine Or.inl ?_
    rw [← hrest]
    exact List.mem_filter.mpr ⟨he, by simpa using hmerge⟩

theorem not_isText_of_isMerge {e : NodeId × NodeId} (h : g.isMerge e = true) : ¬ g.IsText e.1 s := by
  unfold Graph.isMerge at h
  rintro (hn | hn)
  · rw [hn] at h
    simp [Node.tag] at h
  · rw [hn] at h
    simp [Node.tag] at h

/-- The content of a text key is that of the last entry with this key. -/
theorem IsReading.find?_text (h : IsReading g b id entries)
    (hown : g.own id = before ++ (kid, cid) :: after)
    (hkid : g.node kid = .scalar (standard "str") s.toList) (hlast : ∀ e ∈ after, ¬ g.IsText e.1 s) :
    b.IsBuilt cid ∧
      (entries.find? fun e => Value.sameKey e.1 (.text s)).map (·.2) = some cid := by
  obtain ⟨g', kvs, hs, hkeys, rfl⟩ := h
  obtain ⟨front, rest, hsplit, hrest⟩ := split_of_own hs hown
  rw [hsplit] at hkeys
  obtain ⟨us, ⟨k, c⟩, vs, rfl, ⟨hk, rfl, hbuilt⟩, hvs⟩ := split_of_forall₂ hkeys
  have hkey : k = .text s := by
    have hv := (readsAs_iff hkid rfl).mp (hk.scalar ⟨_, _, _, hkid, rfl⟩)
    simpa using (Except.ok.inj hv).symm
  subst hkey
  refine ⟨hbuilt, Value.find?_ofEntries (fun kv hkv htext => ?_) us c⟩
  obtain ⟨e, he, hke, _⟩ := exists_of_forall₂ hvs kv hkv
  obtain he | hmerge := hrest e he
  · exact hlast e he (hke.text s htext)
  · exact not_isText_of_isMerge hmerge (hke.text s htext)

end Builder

/-- A node stands under a text key of a mapping. Of several such keys the last counts. -/
def Graph.HasText (g : Graph) (id : NodeId) (s : String) (cid : NodeId) : Prop :=
  ∃ before kid after, g.node id = .mapping (standard "map") (before ++ (kid, cid) :: after) ∧
    g.node kid = .scalar (standard "str") s.toList ∧ ∀ e ∈ after, ¬ g.IsText e.1 s

theorem Graph.HasSection.hasText (h : g.HasSection root s sid) : g.HasText root s sid := by
  obtain ⟨before, kid, after, hroot, hkid, hlast, _⟩ := h
  exact ⟨before, kid, after, hroot, hkid, hlast⟩

theorem Graph.HasSection.tag (h : g.HasSection root s sid) : (g.node sid).tag = standard "map" := by
  obtain ⟨_, _, _, _, _, _, hsid⟩ := h
  exact hsid

theorem own_of_hasText (h : g.HasText id s cid) :
    ∃ before kid after, g.own id = before ++ (kid, cid) :: after ∧
      g.node kid = .scalar (standard "str") s.toList ∧ ∀ e ∈ after, ¬ g.IsText e.1 s := by
  obtain ⟨before, kid, after, hroot, hkid, hlast⟩ := h
  have hmerge : g.isMerge (kid, cid) = false := by
    rw [Graph.isMerge, hkid]
    simp [Node.tag]
  refine ⟨before.filter fun e => !g.isMerge e, kid, after.filter fun e => !g.isMerge e, ?_, hkid,
    fun e he => hlast e (List.mem_filter.mp he).1⟩
  unfold Graph.own Graph.entries
  rw [hroot]
  simp [List.filter_append, hmerge]

/-- The value of a mapping has under a text key the value of the node that stands there. -/
theorem Builder.Faithful.find?_value (h : Builder.Faithful g (fun _ => False) b) (hw : b.waiting = [])
    (hbuilt : b.IsBuilt id) (htext : g.HasText id s cid) :
    b.IsBuilt cid ∧ ∀ depth, ∃ es, b.value (depth + 1) id = .dict es ∧
      Value.find? es s = some (b.value depth cid) := by
  obtain ⟨before, kid, after, hown, hkid, hlast⟩ := own_of_hasText htext
  obtain ⟨_, _, _, hnode, _, _⟩ := htext
  obtain ⟨entries, hr, hvalue⟩ := h.value_dict hw hbuilt (by rw [hnode]; rfl)
  obtain ⟨hcid, hfind⟩ := hr.find?_text hown hkid hlast
  refine ⟨hcid, fun depth => ⟨_, hvalue depth, ?_⟩⟩
  obtain ⟨e, he, hid⟩ := Option.map_eq_some_iff.mp hfind
  rw [Value.find?, List.find?_map]
  change Option.map _ (Option.map _ (entries.find? fun e => Value.sameKey e.1 (.text s))) = _
  rw [he]
  simp [hid]

/-- The value of a document is what a builder sees that has built its graph. -/
theorem builder_of_read (hg : graph cs = .ok (some (root, g))) (hv : read cs = .ok v) :
    ∃ b, Builder.Faithful g (fun _ => False) b ∧ b.waiting = [] ∧ b.IsBuilt root ∧
      v = b.value viewDepth root := by
  have hread : (do
      let b ← Builder.ofGraph g root
      return b.value viewDepth root) = .ok v := by
    unfold read at hv
    rwa [hg] at hv
  obtain ⟨b, hb, hv⟩ := bind_eq_ok.mp hread
  cases hv
  obtain ⟨hf, hw, hbuilt⟩ := Builder.faithful_of_ofGraph hb
  exact ⟨b, hf, hw, hbuilt, rfl⟩

/-! ## Scalars in the mappings of a document -/

/-- A node stands in the mappings of a document: it is the root, or the content of an entry of one. -/
inductive Graph.StandsIn (g : Graph) (root : NodeId) : NodeId → Prop
  | root : StandsIn g root root
  | content {a : NodeId} {e : NodeId × NodeId} (ha : StandsIn g root a)
      (ht : (g.node a).tag = standard "map") (he : e ∈ g.own a) : StandsIn g root e.2

/-- A scalar stands in the mappings of a document, or is a key in one of them. -/
def Graph.ScalarIn (g : Graph) (root id : NodeId) : Prop :=
  g.StandsIn root id ∨
    ∃ a content, g.StandsIn root a ∧ (g.node a).tag = standard "map" ∧ (id, content) ∈ g.own a

theorem Builder.IsReading.entry (h : Builder.IsReading g b id entries) {e : NodeId × NodeId}
    (he : e ∈ g.own id) : (∃ k, IsKeyOf g e.1 k) ∧ b.IsBuilt e.2 := by
  obtain ⟨g', kvs, hs, hkeys, rfl⟩ := h
  obtain ⟨front, rest, hsplit⟩ := List.append_of_mem (hs.mem_entries he)
  rw [hsplit] at hkeys
  obtain ⟨_, ⟨k, c⟩, _, _, ⟨hk, hsame, hbuilt⟩, _⟩ := split_of_forall₂ hkeys
  exact ⟨⟨k, hk⟩, hsame ▸ hbuilt⟩

theorem Builder.Faithful.isBuilt_of_standsIn (h : Builder.Faithful g (fun _ => False) b)
    (hw : b.waiting = []) (hroot : b.IsBuilt root) (hid : g.StandsIn root id) : b.IsBuilt id := by
  induction hid with
  | root => exact hroot
  | content _ ht he ih =>
    obtain ⟨entries, hr, -⟩ := h.value_dict hw ih ht
    exact (hr.entry he).2

/-- A document that is read has readable scalars in its mappings. -/
theorem readsAs_of_read (hg : graph cs = .ok (some (root, g))) (hv : read cs = .ok v)
    (hid : g.ScalarIn root id) (hr : g.HasReader id) : ∃ w, g.ReadsAs id w := by
  obtain ⟨b, hf, hw, hroot, -⟩ := builder_of_read hg hv
  rcases hid with hid | ⟨a, content, ha, ht, he⟩
  · exact ⟨_, hf.value_readsAs (hf.isBuilt_of_standsIn hw hroot hid) hr 0⟩
  · obtain ⟨entries, hreading, -⟩ := hf.value_dict hw (hf.isBuilt_of_standsIn hw hroot ha) ht
    obtain ⟨k, hk⟩ := (hreading.entry he).1
    exact ⟨k, hk.scalar hr⟩

/-- The value of a document has a section for each that its graph has, with a key for each key node. -/
theorem read_section (hg : graph cs = .ok (some (root, g))) (hv : read cs = .ok v)
    (hs : g.HasSection root s sid) :
    ∃ top section', v = .dict top ∧ Value.find? top s = some (.dict section') ∧
      ∀ kid cid, (kid, cid) ∈ g.own sid →
        ∃ e ∈ section', ∃ k, IsKeyOf g kid k ∧ (e.1 = k ∨ Value.sameKey e.1 k = true) := by
  obtain ⟨b, hf, hw, hbuilt, rfl⟩ := builder_of_read hg hv
  obtain ⟨hsection, hfind⟩ := hf.find?_value hw hbuilt hs.hasText
  obtain ⟨top, htop, hfind⟩ := hfind 3
  obtain ⟨kids, hkids, hvalue⟩ := hf.value_dict hw hsection hs.tag
  refine ⟨top, kids.map fun e => (e.1, b.value 2 e.2), htop, by rw [hfind, hvalue 2], ?_⟩
  intro key cid hkey
  obtain ⟨e, he, k, hk, hsame⟩ := hkids.exists_key hkey
  exact ⟨_, List.mem_map_of_mem he, k, hk, hsame⟩

/-- The value of a document has under a text key what the scalar that stands there is read as. -/
theorem read_scalar (hg : graph cs = .ok (some (root, g))) (hv : read cs = .ok v)
    (htext : g.HasText root s id) (hr : g.HasReader id) :
    ∃ top w, v = .dict top ∧ Value.find? top s = some w ∧ g.ReadsAs id w := by
  obtain ⟨b, hf, hw, hbuilt, rfl⟩ := builder_of_read hg hv
  obtain ⟨hid, hfind⟩ := hf.find?_value hw hbuilt htext
  obtain ⟨top, htop, hfind⟩ := hfind 3
  exact ⟨top, _, htop, hfind, hf.value_readsAs hid hr 3⟩

/-! ## Keys that stand plain -/

variable {k n ns : List Char}

/-- A plain scalar has the tag of its form. -/
def Graph.IsPlainScalar (g : Graph) (id : NodeId) (k : List Char) : Prop :=
  g.node id = .scalar (implicitTag k) k

/-- A mapping of a name and a namespace, all of its scalars plain. -/
def Graph.IsPlainName (g : Graph) (id : NodeId) (n ns : List Char) : Prop :=
  ∃ key name key' namespaceName,
    g.node id = .mapping (standard "map") [(key, name), (key', namespaceName)] ∧
      g.IsPlainScalar key "name".toList ∧ g.IsPlainScalar name n ∧
      g.IsPlainScalar key' "namespace".toList ∧ g.IsPlainScalar namespaceName ns

def nameEntries (name namespaceName : Value) : List (Value × Value) :=
  [(.text "name", name), (.text "namespace", namespaceName)]

/-- The key that a mapping of a name and a namespace makes. -/
def nameKey (name namespaceName : Value) : Value :=
  .tuple [.tuple [.text "name", name], .tuple [.text "namespace", namespaceName]]

/-- The key of a name and a namespace, in whichever order they stand. -/
theorem eq_nameKey {name namespaceName : Value} {entries : List (Value × Value)}
    (h : IsFrozen entries v) (hp : entries.Perm (nameEntries name namespaceName)) :
    v = nameKey name namespaceName := by
  obtain ⟨named, sorted, hnamed, hperm, horder, rfl⟩ := h
  have hnamed' : named.Perm [(.plain "name", name), (.plain "namespace", namespaceName)] := by
    rcases List.perm_pair.mp hp with rfl | rfl
    · cases hnamed
      exact .refl _
    · cases hnamed
      exact .swap _ _ _
  have hbelow : RawText.plain "name" < .plain "namespace" := by decide
  rcases List.perm_pair.mp (hperm.trans hnamed') with rfl | rfl
  · rfl
  · exact absurd hbelow ((List.pairwise_cons.mp horder).1 _ List.mem_cons_self)

theorem readsAs_plain_iff (h : g.IsPlainScalar id k) : g.ReadsAs id v ↔ IsPlainValue k v := by
  unfold Graph.ReadsAs IsPlainValue
  rw [h]
  constructor
  · rintro ⟨_, _, read, he, hr, hv⟩
    cases he
    exact ⟨read, hr, hv⟩
  · rintro ⟨read, hr, hv⟩
    exact ⟨_, _, read, rfl, hr, hv⟩

theorem hasReader_label (h : g.IsPlainScalar id k) (hk : IsLabel k) : g.HasReader id := by
  have hreader : (Scalar.reader? (implicitTag k)).isSome := by
    rw [implicitTag_label hk]
    repeat' split
    all_goals rfl
  obtain ⟨read, hr⟩ := Option.isSome_iff_exists.mp hreader
  exact ⟨_, _, read, h, hr⟩

theorem isLabel_name : IsLabel "name".toList := ⟨by decide, by decide, by decide, by decide⟩

theorem isLabel_namespace : IsLabel "namespace".toList := ⟨by decide, by decide, by decide, by decide⟩

/-- The key of a plain label is what the label is read as. -/
theorem isKeyOf_label (h : IsKeyOf g id v) (hp : g.IsPlainScalar id k) (hk : IsLabel k) :
    IsPlainValue k v :=
  (readsAs_plain_iff hp).mp (h.scalar (hasReader_label hp hk))

theorem isMerge_label {e : NodeId × NodeId} (hp : g.IsPlainScalar e.1 k) (hk : IsLabel k) :
    g.isMerge e = false := by
  obtain ⟨tag, _, read, hnode, hr⟩ := hasReader_label hp hk
  unfold Graph.isMerge
  rw [hnode, beq_eq_false_iff_ne]
  rintro (hmerge : tag = standard "merge")
  rw [hmerge] at hr
  cases hr

theorem eq_text_of_isPlainValue {s : String} (hs : implicitTag s.toList = standard "str")
    (h : IsPlainValue s.toList v) : v = .text s := by
  obtain ⟨read, hr, hv⟩ := h
  rw [hs] at hr
  cases hr
  cases hv
  rw [String.ofList_toList]

/-- The key of a mapping of two plain labels. -/
theorem isKeyOf_name (h : IsKeyOf g id v) (hp : g.IsPlainName id n ns) (hn : IsLabel n)
    (hns : IsLabel ns) :
    ∃ name namespaceName, v = nameKey name namespaceName ∧ IsPlainValue n name ∧
      IsPlainValue ns namespaceName := by
  obtain ⟨key, name, key', namespaceName, hnode, hkey, hname, hkey', hnamespace⟩ := hp
  have hplain : g.IsPlain id := by
    have hentries : g.entries id = [(key, name), (key', namespaceName)] := by
      rw [Graph.entries, hnode]
    unfold Graph.IsPlain
    rw [hentries]
    simp [isMerge_label (e := (key, name)) hkey isLabel_name,
      isMerge_label (e := (key', namespaceName)) hkey' isLabel_namespace]
  have hread : ∀ e ∈ [(key, name), (key', namespaceName)], g.HasReader e.1 ∧ g.HasReader e.2 := by
    simp [hasReader_label hkey isLabel_name, hasReader_label hkey' isLabel_namespace,
      hasReader_label hname hn, hasReader_label hnamespace hns]
  obtain ⟨kvs, hkvs, hfrozen⟩ := h.frozen _ _ hnode hplain hread
  obtain ⟨⟨k₁, v₁⟩, ⟨k₂, v₂⟩, rfl, ⟨hk₁, hv₁⟩, hk₂, hv₂⟩ := pair_of_forall₂ hkvs
  obtain rfl := eq_text_of_isPlainValue (by decide) ((readsAs_plain_iff hkey).mp hk₁)
  obtain rfl := eq_text_of_isPlainValue (by decide) ((readsAs_plain_iff hkey').mp hk₂)
  exact ⟨v₁, v₂, eq_nameKey hfrozen (.refl _), (readsAs_plain_iff hname).mp hv₁,
    (readsAs_plain_iff hnamespace).mp hv₂⟩

end CeilingGate.Yaml
