import CeilingGate.Proofs.Yaml.Sections

/-! Keys that spell a name and its namespace: a mapping of the two texts in either order, or one text with a
slash between them. Each of them can be made into a key, which is one of two. -/
namespace CeilingGate.Yaml

open CeilingGate.Yaml.Graph

variable {g : Graph} {b : Builder} {id key content : NodeId} {n ns s : String} {k a v : Value}
  {cs : List Char} {unfilled : NodeId → Prop} {deep : Bool} {frames : Nat}
  {done : List (Value × NodeId)}

/-- A scalar that is a text. -/
def Graph.IsTextScalar (g : Graph) (id : NodeId) (s : String) : Prop :=
  g.node id = .scalar (standard "str") s.toList

/-- A node spells a name and a namespace, which has no slash where it stands in front of one. -/
inductive Graph.Spells (g : Graph) (id : NodeId) (n ns : String) : Prop
  | text (hid : g.IsTextScalar id (ns ++ "/" ++ n)) (hslash : '/' ∉ ns.toList)
  | mapping {es : List (NodeId × NodeId)} {key name key' namespaceName : NodeId}
      (hid : g.node id = .mapping (standard "map") es)
      (hes : es = [(key, name), (key', namespaceName)] ∨ es = [(key', namespaceName), (key, name)])
      (hkey : g.IsTextScalar key "name") (hname : g.IsTextScalar name n)
      (hkey' : g.IsTextScalar key' "namespace") (hnamespace : g.IsTextScalar namespaceName ns)

/-- What a key that spells a name and a namespace is made into. -/
inductive IsSpelling (n ns : String) : Value → Prop
  | text (hslash : '/' ∉ ns.toList) : IsSpelling n ns (.text (ns ++ "/" ++ n))
  | pair : IsSpelling n ns (nameKey (.text n) (.text ns))

theorem Graph.IsTextScalar.hasReader (h : g.IsTextScalar id s) : g.HasReader id :=
  ⟨_, _, _, h, rfl⟩

theorem Graph.IsTextScalar.eq_text (h : g.IsTextScalar id s) (hv : g.ReadsAs id v) : v = .text s := by
  have hread := (readsAs_iff h rfl).mp hv
  simpa using (Except.ok.inj hread).symm

theorem Graph.IsTextScalar.isMerge (h : g.IsTextScalar key s) : g.isMerge (key, content) = false := by
  unfold Graph.isMerge
  rw [h]
  rfl

theorem Graph.Spells.isMerge (h : g.Spells id n ns) : g.isMerge (id, content) = false := by
  cases h with
  | text hid => exact hid.isMerge
  | mapping hid =>
    unfold Graph.isMerge
    rw [hid]
    rfl

/-- Two entries of texts are read as they are written. -/
theorem texts_of_readsAs {a b c d : NodeId} {k v k' v' : String} {kvs : List (Value × Value)}
    (hk : g.IsTextScalar a k) (hv : g.IsTextScalar b v) (hk' : g.IsTextScalar c k')
    (hv' : g.IsTextScalar d v')
    (h : List.Forall₂ (fun e kv => g.ReadsAs e.1 kv.1 ∧ g.ReadsAs e.2 kv.2) [(a, b), (c, d)] kvs) :
    kvs = [(.text k, .text v), (.text k', .text v')] := by
  obtain ⟨⟨k₁, v₁⟩, ⟨k₂, v₂⟩, rfl, ⟨hk₁, hv₁⟩, hk₂, hv₂⟩ := pair_of_forall₂ h
  obtain rfl := hk.eq_text hk₁
  obtain rfl := hv.eq_text hv₁
  obtain rfl := hk'.eq_text hk₂
  obtain rfl := hv'.eq_text hv₂
  rfl

theorem isSpelling_of_isKeyOf (h : IsKeyOf g id k) (hs : g.Spells id n ns) : IsSpelling n ns k := by
  cases hs with
  | text hid hslash =>
    rw [hid.eq_text (h.scalar hid.hasReader)]
    exact .text hslash
  | @mapping es key name key' namespaceName hid hes hkey hname hkey' hnamespace =>
    have hplain : g.IsPlain id := by
      have hentries : g.entries id = es := by rw [Graph.entries, hid]
      unfold Graph.IsPlain
      rw [hentries]
      rcases hes with rfl | rfl <;> simp [hkey.isMerge, hkey'.isMerge]
    have hread : ∀ e ∈ es, g.HasReader e.1 ∧ g.HasReader e.2 := by
      rcases hes with rfl | rfl <;>
        simp [hkey.hasReader, hname.hasReader, hkey'.hasReader, hnamespace.hasReader]
    obtain ⟨kvs, hkvs, hfrozen⟩ := h.frozen _ _ hid hplain hread
    rcases hes with rfl | rfl
    · obtain rfl := texts_of_readsAs hkey hname hkey' hnamespace hkvs
      rw [eq_nameKey hfrozen (.refl _)]
      exact .pair
    · obtain rfl := texts_of_readsAs hkey' hnamespace hkey hname hkvs
      rw [eq_nameKey hfrozen (.swap _ _ _)]
      exact .pair

/-! ## Making the keys -/

namespace Builder

/-- A builder that can make any scalar: none of those that it is at is one. -/
structure IsReady (g : Graph) (unfilled : NodeId → Prop) (b : Builder) : Prop where
  faithful : Faithful g unfilled b
  underWay : ∀ id ∈ b.underWay, ¬ g.HasReader id

/-- A text is built, whatever was built before. -/
theorem IsReady.build (h : IsReady g unfilled b) (hid : g.IsTextScalar id s) (deep : Bool)
    (frames : Nat) : ∃ b', Builder.build deep (frames + 2) b id = .ok b' ∧ IsReady g unfilled b' ∧
      Grows b b' ∧ b'.IsBuilt id := by
  have hbuilds : ∃ b', Builder.build deep (frames + 2) b id = .ok b' ∧ b'.underWay = b.underWay := by
    cases hc : b.content? id with
    | some c =>
      refine ⟨b, ?_, rfl⟩
      rw [Builder.build]
      simp [hc]
    | none =>
      have hnode := h.faithful.graph.scalar hid rfl
      have hunder : id ∉ b.underWay := fun hu => h.underWay id hu hid.hasReader
      exact ⟨_, build_scalar hnode rfl hc hunder, rfl⟩
  obtain ⟨b', hb', hunder⟩ := hbuilds
  have hgives := (buildsFaithfully g (frames + 2)).build unfilled deep b id h.faithful
  obtain ⟨hlater, hbuilt⟩ := gives_iff.mp hgives b' hb'
  exact ⟨b', hb', ⟨hlater.faithful, fun a ha => h.underWay a (hunder ▸ ha)⟩, hlater.grows, hbuilt⟩

theorem IsReady.value_text (h : IsReady g unfilled b) (hid : g.IsTextScalar id s)
    (hbuilt : b.IsBuilt id) (depth : Nat) : b.value depth id = .text s :=
  hid.eq_text (h.faithful.value_readsAs hbuilt hid.hasReader depth)

/-- An entry of two texts is added under its key. -/
theorem IsReady.addEntry (h : IsReady g unfilled b) (hk : g.IsTextScalar key s)
    (hc : g.IsTextScalar content n) (done : List (Value × NodeId)) (frames : Nat) :
    ∃ b', Builder.addEntry
        (keyValue (frames + 2) (fun b id => Builder.mapping true (frames + 2) b id)
          fun b id => Builder.build true (frames + 2) b id)
        (fun b id => Builder.build true (frames + 2) b id) (b, done) (key, content) =
          .ok (b', Value.insertEntry done (.text s) content) ∧
      IsReady g unfilled b' ∧ Grows b b' ∧ b'.IsBuilt content := by
  obtain ⟨b₁, hb₁, h₁, hgrows, hbuilt⟩ := h.build hk true frames
  obtain ⟨b₂, hb₂, h₂, hgrows', hbuilt'⟩ := h₁.build hc true frames
  have hscalar : (b.graph.node key).isMapping = false := by
    rw [h.faithful.graph.isMapping]
    exact hk.hasReader.not_isMapping
  refine ⟨b₂, ?_, h₂, hgrows.trans hgrows', hbuilt'⟩
  have hkey : keyValue (frames + 2) (fun b id => Builder.mapping true (frames + 2) b id)
      (fun b id => Builder.build true (frames + 2) b id) b key = .ok (b₁, .text s) := by
    unfold keyValue
    simp only [hscalar, Bool.false_eq_true, if_false, hb₁]
    rw [← h₁.value_text hk hbuilt 0]
    rfl
  rw [Builder.addEntry, hkey]
  simp only [bind, Except.bind]
  rw [hb₂]
  rfl

/-- A mapping of two texts under two text keys is read as its entries. -/
theorem IsReady.mapping {k c k' c' : NodeId} {s v s' v' : String} (h : IsReady g unfilled b)
    (hid : g.node id = .mapping (standard "map") [(k, c), (k', c')]) (hk : g.IsTextScalar k s)
    (hc : g.IsTextScalar c v) (hk' : g.IsTextScalar k' s') (hc' : g.IsTextScalar c' v')
    (frames : Nat) :
    ∃ b', Builder.mapping true (frames + 3) b id =
        .ok (b', Value.ofEntries [(.text s, c), (.text s', c')]) ∧
      IsReady g unfilled b' ∧ b'.IsBuilt c ∧ b'.IsBuilt c' := by
  have hentries : g.entries id = [(k, c), (k', c')] := by rw [Graph.entries, hid]
  have hplain : g.IsPlain id := by
    unfold Graph.IsPlain
    rw [hentries]
    simp [hk.isMerge, hk'.isMerge]
  have hmapping : (b.graph.node id).isMapping = true := by
    rw [h.faithful.graph.isMapping, hid]
    rfl
  obtain ⟨g', hflat⟩ := flatten_of_isPlain h.faithful.graph hplain (frames + 1)
  have hsteady := gives_iff.mp (flatten_steady h.faithful.graph (frames + 2) id) g' hflat
  have hready : IsReady g unfilled { b with graph := g' } := ⟨h.faithful.setGraph hsteady, h.underWay⟩
  obtain ⟨b₁, hb₁, h₁, _, hbuilt⟩ := hready.addEntry hk hc [] frames
  obtain ⟨b₂, hb₂, h₂, hgrows, hbuilt'⟩ := h₁.addEntry hk' hc' (Value.insertEntry [] (.text s) c) frames
  refine ⟨b₂, ?_, h₂, hbuilt.mono hgrows, hbuilt'⟩
  rw [Builder.mapping]
  simp only [hmapping, if_true, hflat, bind, Except.bind, hsteady.plain id hplain, hentries,
    List.foldlM_cons, List.foldlM_nil, hb₁, hb₂, pure, Except.pure]
  rfl

/-- Two entries of different texts are put in the order of the texts. -/
theorem frozenKey_pair (b : Builder) (n : Nat) {s t : String} (c d : NodeId)
    (h : RawText.plain s < .plain t) :
    let key := Value.tuple [.tuple [.text s, b.value 0 c], .tuple [.text t, b.value 0 d]]
    b.frozenKey n [(.text s, c), (.text t, d)] = .ok key ∧
      b.frozenKey n [(.text t, d), (.text s, c)] = .ok key := by
  have hne : RawText.plain s ≠ .plain t := fun heq => RawText.lt_irrefl _ (heq ▸ h)
  have hnot : ¬ RawText.plain t < .plain s := fun h' => RawText.lt_irrefl _ (RawText.lt_trans h h')
  constructor <;>
    simp [Builder.frozenKey, textEntry, Value.text?, sortEntries, Builder.insertEntry, entryBelow,
      hne, hne.symm, h, hnot, RawText.toValue, bind, Except.bind, pure, Except.pure]

/-- A mapping of a name and a namespace, in either order, is made into the key of the two. -/
theorem IsReady.frozenKey {name namespaceName key' : NodeId} {es : List (NodeId × NodeId)}
    (h : IsReady g unfilled b) (hid : g.node id = .mapping (standard "map") es)
    (hes : es = [(key, name), (key', namespaceName)] ∨ es = [(key', namespaceName), (key, name)])
    (hkey : g.IsTextScalar key "name") (hname : g.IsTextScalar name n)
    (hkey' : g.IsTextScalar key' "namespace") (hnamespace : g.IsTextScalar namespaceName ns)
    (frames : Nat) :
    ∃ b' entries, Builder.mapping true (frames + 3) b id = .ok (b', entries) ∧
      b'.frozenKey (frames + 3) entries = .ok (nameKey (.text n) (.text ns)) := by
  have hbelow : RawText.plain "name" < .plain "namespace" := by decide
  rcases hes with rfl | rfl
  · obtain ⟨b', hb', h', hbuilt, hbuilt'⟩ := h.mapping hid hkey hname hkey' hnamespace frames
    refine ⟨b', _, hb', ?_⟩
    have hkey := (frozenKey_pair b' (frames + 3) name namespaceName hbelow).1
    rwa [h'.value_text hname hbuilt, h'.value_text hnamespace hbuilt'] at hkey
  · obtain ⟨b', hb', h', hbuilt, hbuilt'⟩ := h.mapping hid hkey' hnamespace hkey hname frames
    refine ⟨b', _, hb', ?_⟩
    have hkey := (frozenKey_pair b' (frames + 3) name namespaceName hbelow).2
    rwa [h'.value_text hname hbuilt', h'.value_text hnamespace hbuilt] at hkey

/-- Whatever else has been built, a node that spells a name and a namespace is made into a key. -/
theorem IsReady.keyValue (h : IsReady g unfilled b) (hs : g.Spells id n ns) (deep : Bool)
    (frames : Nat) :
    ∃ b' k, Builder.keyValue (frames + 3) (fun b id => Builder.mapping true (frames + 3) b id)
        (fun b id => Builder.build deep (frames + 3) b id) b id = .ok (b', k) ∧
      k.isHashable = true := by
  cases hs with
  | text hid =>
    obtain ⟨b', hb', h', _, hbuilt⟩ := h.build hid deep (frames + 1)
    have hscalar : (b.graph.node id).isMapping = false := by
      rw [h.faithful.graph.isMapping]
      exact hid.hasReader.not_isMapping
    refine ⟨b', b'.value 0 id, ?_, by rw [h'.value_text hid hbuilt]; rfl⟩
    unfold Builder.keyValue
    simp only [hscalar, Bool.false_eq_true, if_false, hb']
    rfl
  | mapping hid hes hkey hname hkey' hnamespace =>
    have hmapping : (b.graph.node id).isMapping = true := by
      rw [h.faithful.graph.isMapping, hid]
      rfl
    obtain ⟨b', entries, hb', hk⟩ := h.frozenKey hid hes hkey hname hkey' hnamespace frames
    refine ⟨b', nameKey (.text n) (.text ns), ?_, rfl⟩
    unfold Builder.keyValue
    simp only [hmapping, if_true, hb', bind, Except.bind, hk, pure, Except.pure]

end Builder

end CeilingGate.Yaml
