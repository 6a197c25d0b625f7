import CeilingGate.Proofs.Value.Keys
import CeilingGate.Proofs.Yaml.Build
import CeilingGate.Proofs.Yaml.Steady
import Mathlib.Data.List.Forall2

/-! What contents have to do with the nodes that they are built from: scalars have the values that they
read as, and mappings have their own entries behind those that were merged. -/
namespace CeilingGate.Yaml

open CeilingGate.Yaml.Graph

variable {g g' : Graph} {b b' : Builder} {id a root : NodeId} {frames rounds : Nat} {deep : Bool}
  {read : List Char → Except Failure Value} {tag : String} {text : List Char} {k v : Value}
  {c : Content} {entries : List (Value × NodeId)} {es : List (NodeId × NodeId)}

/-! ## Nodes and their values -/

/-- A node is a scalar with a tag that reads scalars. -/
def Graph.HasReader (g : Graph) (id : NodeId) : Prop :=
  ∃ tag text read, g.node id = .scalar tag text ∧ Scalar.reader? tag = some read

/-- A node is a scalar that is read as a value. -/
def Graph.ReadsAs (g : Graph) (id : NodeId) (v : Value) : Prop :=
  ∃ tag text read, g.node id = .scalar tag text ∧ Scalar.reader? tag = some read ∧ read text = .ok v

/-- A node is a text. An equals sign is one where it is a key. -/
def Graph.IsText (g : Graph) (id : NodeId) (s : String) : Prop :=
  g.node id = .scalar (standard "str") s.toList ∨ g.node id = .scalar (standard "value") s.toList

/-- The pair of a text and a content, as it stands in a key. -/
def frozenPair (e : RawText × Value) : Value := .tuple [e.1.toValue, e.2]

/-- The key that the entries of a mapping make: their pairs in the order of the texts. -/
def IsFrozen (entries : List (Value × Value)) (k : Value) : Prop :=
  ∃ named sorted : List (RawText × Value),
    entries.mapM (fun e => e.1.text?.map fun t => (t, e.2)) = some named ∧
      sorted.Perm named ∧ sorted.Pairwise (fun e f => ¬ f.1 < e.1) ∧
      k = .tuple (sorted.map frozenPair)

/-- What the key of a node may be. -/
structure IsKeyOf (g : Graph) (id : NodeId) (k : Value) : Prop where
  scalar : g.HasReader id → g.ReadsAs id k
  text : ∀ s, k = .text s → g.IsText id s
  frozen : ∀ tag es, g.node id = .mapping tag es → g.IsPlain id →
    (∀ e ∈ es, g.HasReader e.1 ∧ g.HasReader e.2) →
      ∃ kvs, List.Forall₂ (fun e kv => g.ReadsAs e.1 kv.1 ∧ g.ReadsAs e.2 kv.2) es kvs ∧
        IsFrozen (Value.ofEntries kvs) k

theorem readsAs_iff (hn : g.node id = .scalar tag text) (hr : Scalar.reader? tag = some read) :
    g.ReadsAs id v ↔ read text = .ok v := by
  constructor
  · rintro ⟨tag', text', read', hn', hr', hv⟩
    rw [hn] at hn'
    cases hn'
    rw [hr] at hr'
    cases hr'
    exact hv
  · intro hv
    exact ⟨tag, text, read, hn, hr, hv⟩

theorem Graph.HasReader.not_isMapping (h : g.HasReader id) : (g.node id).isMapping = false := by
  obtain ⟨tag, text, read, hn, _⟩ := h
  rw [hn]
  rfl

theorem Graph.Steady.tag_eq (h : Steady g g') (ht : (g.node id).tag ≠ standard "value") :
    (g'.node id).tag = (g.node id).tag :=
  (h.tag id).resolve_right fun hvalue => ht hvalue.1

theorem Graph.Steady.isMapping (h : Steady g g') (id : NodeId) :
    (g'.node id).isMapping = (g.node id).isMapping := by
  have hf := h.form id
  cases hn : g.node id <;> cases hn' : g'.node id <;> simp_all [Node.form, Node.isMapping]

/-- Scalars with a reader stay what they are. -/
theorem Graph.Steady.scalar (h : Steady g g') (hn : g.node id = .scalar tag text)
    (hr : Scalar.reader? tag = some read) : g'.node id = .scalar tag text := by
  have hf := h.form id
  have ht : (g'.node id).tag = tag := by
    rw [h.tag_eq (by rintro hvalue; rw [hn] at hvalue; cases hvalue; cases hr), hn]
    rfl
  rw [hn] at hf
  cases hn' : g'.node id <;> simp_all [Node.form, Node.tag]

theorem Graph.Steady.isText {s : String} (h : Steady g g')
    (hn : g'.node id = .scalar (standard "str") s.toList) : g.IsText id s := by
  have hf := h.form id
  have ht := h.tag id
  rw [hn] at hf ht
  cases hg : g.node id with
  | scalar tag text =>
    rw [hg] at hf ht
    have htext : text = s.toList := by simpa [Node.form] using hf.symm
    rcases ht with ht | ⟨ht, _⟩
    · exact Or.inl (by rw [hg, htext]; exact congrArg (Node.scalar · _) ht.symm)
    · exact Or.inr (by rw [hg, htext]; exact congrArg (Node.scalar · _) ht)
  | _ => simp [hg, Node.form] at hf

theorem Graph.Steady.tag_of_collection (h : Steady g g')
    (hc : Builder.isCollectionTag (g'.node id).tag = true) : (g.node id).tag = (g'.node id).tag := by
  obtain hsame | ⟨_, hstr⟩ := h.tag id
  · exact hsame.symm
  · rw [hstr] at hc
    exact absurd hc (by decide)

theorem reader?_of_collection (h : Builder.isCollectionTag tag = true) :
    Scalar.reader? tag = none := by
  simp only [Builder.isCollectionTag, List.any_cons, List.any_nil, Bool.or_false, Bool.or_eq_true,
    beq_iff_eq] at h
  rcases h with rfl | rfl | rfl | rfl | rfl <;> decide

namespace Builder

/-! ## Contents only become more -/

/-- Contents that are still to come: of nodes without any, and of collections that wait. -/
def debt (b : Builder) : Nat := b.contents.countP (·.isNone) + b.waiting.length

structure Grows (b b' : Builder) : Prop where
  size : b'.contents.size = b.contents.size
  contents : ∀ id, (b.content? id).isSome → (b'.content? id).isSome
  debt : b'.debt ≤ b.debt

theorem grows_refl (b : Builder) : Grows b b := ⟨rfl, fun _ h => h, Nat.le_refl _⟩

theorem Grows.trans {b'' : Builder} (h : Grows b b') (h' : Grows b' b'') : Grows b b'' :=
  ⟨h'.size.trans h.size, fun id hid => h'.contents id (h.contents id hid),
    Nat.le_trans h'.debt h.debt⟩

theorem content?_setContent (b : Builder) (id a : NodeId) (c : Content) :
    (b.setContent id c).content? a =
      if id = a ∧ id < b.contents.size then some c else b.content? a := by
  unfold content? setContent
  rw [Array.getElem?_setIfInBounds]
  by_cases h : id = a
  · subst h
    by_cases hs : id < b.contents.size <;> simp [hs]
  · simp [h]

theorem grows_setContent (b : Builder) (id : NodeId) (c : Content) :
    Grows b (b.setContent id c) where
  size := by simp [setContent]
  contents := by
    intro a ha
    rw [content?_setContent]
    split
    · rfl
    · exact ha
  debt := by
    unfold debt setContent Array.setIfInBounds
    split
    · next h =>
      rw [Array.countP_set h]
      simp
    · exact Nat.le_refl _

/-- A collection that begins to wait has a content, as yet empty, that it did not have before. -/
theorem grows_wait (hid : id < b.contents.size) (hc : b.content? id = none) (c : Content) :
    Grows b { b.setContent id c with waiting := b.waiting ++ [id] } where
  size := (grows_setContent b id c).size
  contents := (grows_setContent b id c).contents
  debt := by
    have hnone : b.contents[id].isNone = true := by
      unfold content? at hc
      rw [Array.getElem?_eq_getElem hid] at hc
      simpa using hc
    have hone := Array.boole_getElem_le_countP (p := (·.isNone)) hid
    unfold debt setContent Array.setIfInBounds
    rw [dif_pos hid, Array.countP_set hid, List.length_append]
    simp only [hnone, if_true, Option.isNone_some, Bool.false_eq_true, if_false,
      List.length_singleton] at hone ⊢
    omega

/-! ## What contents have to do with nodes -/

/-- A node has a content, unless it is no node of the graph. -/
def IsBuilt (b : Builder) (id : NodeId) : Prop := id < b.contents.size → (b.content? id).isSome

/-- The entries of a mapping that has been read: each key is one of its node, and what is under it is
built. -/
def IsReading (g : Graph) (b : Builder) (id : NodeId) (entries : List (Value × NodeId)) : Prop :=
  ∃ g' kvs, Steady g g' ∧
    List.Forall₂ (fun e kv => IsKeyOf g e.1 kv.1 ∧ kv.2 = e.2 ∧ b.IsBuilt kv.2)
      (g'.entries id) kvs ∧
    entries = Value.ofEntries kvs

theorem IsBuilt.mono (h : b.IsBuilt id) (hb : Grows b b') : b'.IsBuilt id :=
  fun hid => hb.contents id (h (hb.size ▸ hid))

theorem IsReading.mono (h : IsReading g b id entries) (hb : Grows b b') :
    IsReading g b' id entries := by
  obtain ⟨g', kvs, hs, hkeys, he⟩ := h
  exact ⟨g', kvs, hs, hkeys.imp fun _ _ hk => ⟨hk.1, hk.2.1, hk.2.2.mono hb⟩, he⟩

/-- A builder whose contents are those of their nodes. Mappings that wait, and those that are `unfilled`,
are yet to be filled. -/
structure Faithful (g : Graph) (unfilled : NodeId → Prop) (b : Builder) : Prop where
  graph : Steady g b.graph
  size : b.contents.size = g.size
  waiting : ∀ id ∈ b.waiting, isCollectionTag (g.node id).tag = true
  leaf : ∀ id c, g.HasReader id → b.content? id = some c → ∃ v, c = .leaf v ∧ g.ReadsAs id v
  text : ∀ id s, b.content? id = some (.leaf (.text s)) → (g.node id).isMapping = false →
    g.IsText id s
  dict : ∀ id c, (g.node id).tag = standard "map" → b.content? id = some c → id ∉ b.waiting →
    ¬ unfilled id → ∃ entries, c = .dict entries ∧ IsReading g b id entries

variable {unfilled unfilled' : NodeId → Prop}

theorem Faithful.mono (h : Faithful g unfilled b) (hu : ∀ id, unfilled id → unfilled' id) :
    Faithful g unfilled' b :=
  { h with dict := fun id c ht hc hw hn => h.dict id c ht hc hw fun hid => hn (hu id hid) }

theorem Faithful.setUnderWay (h : Faithful g unfilled b) (ids : List NodeId) :
    Faithful g unfilled { b with underWay := ids } := ⟨h.graph, h.size, h.waiting, h.leaf, h.text, h.dict⟩

theorem Faithful.setGraph (h : Faithful g unfilled b) (hg : Steady g g') :
    Faithful g unfilled { b with graph := g' } := ⟨hg, h.size, h.waiting, h.leaf, h.text, h.dict⟩

/-- What has to be true of a content that a node is given. -/
structure Befits (g : Graph) (b : Builder) (id : NodeId) (c : Content) : Prop where
  leaf : g.HasReader id → ∃ v, c = .leaf v ∧ g.ReadsAs id v
  text : ∀ s, c = .leaf (.text s) → (g.node id).isMapping = false → g.IsText id s
  dict : (g.node id).tag = standard "map" → ∃ entries, c = .dict entries ∧ IsReading g b id entries

theorem Faithful.setContent (h : Faithful g (fun a => unfilled a ∨ a = id) b)
    (hc : Befits g b id c) : Faithful g unfilled (b.setContent id c) where
  graph := h.graph
  size := by simpa [Builder.setContent] using h.size
  waiting := h.waiting
  leaf := by
    intro a d ha hd
    rw [content?_setContent] at hd
    split at hd
    · next hid =>
      cases hd
      rw [← hid.1] at ha ⊢
      exact hc.leaf ha
    · exact h.leaf a d ha hd
  text := by
    intro a s hd hm
    rw [content?_setContent] at hd
    split at hd
    · next ha =>
      rw [← ha.1] at hm ⊢
      exact hc.text s (Option.some.inj hd) hm
    · exact h.text a s hd hm
  dict := by
    intro a d ht hd hw hn
    have hgrows := grows_setContent b id c
    rw [content?_setContent] at hd
    split at hd
    · next ha =>
      cases hd
      obtain ⟨entries, he, hr⟩ := hc.dict (ha.1 ▸ ht)
      exact ⟨entries, he, ha.1 ▸ hr.mono hgrows⟩
    · next ha =>
      have hne : a ≠ id := by
        rintro rfl
        refine ha ⟨rfl, ?_⟩
        rw [h.size]
        exact lt_size_of_tag (by rw [ht]; decide)
      obtain ⟨entries, he, hr⟩ := h.dict a d ht hd hw fun hu => hu.elim hn hne
      exact ⟨entries, he, hr.mono hgrows⟩

theorem not_hasReader_of_collection (h : isCollectionTag (g.node id).tag = true) :
    ¬ g.HasReader id := by
  rintro ⟨tag, text, read, hn, hr⟩
  rw [hn] at h
  have hnone : Scalar.reader? tag = none := reader?_of_collection h
  rw [hnone] at hr
  cases hr

/-- A collection that is no mapping may have any content but a scalar's. -/
theorem befits_collection (h : isCollectionTag (g.node id).tag = true)
    (ht : (g.node id).tag ≠ standard "map") (hc : ∀ v, c ≠ .leaf v) : Befits g b id c where
  leaf := fun hr => (not_hasReader_of_collection h hr).elim
  text := fun _ hs => (hc _ hs).elim
  dict := fun hmap => (ht hmap).elim

theorem befits_dict (h : (g.node id).tag = standard "map") (hr : IsReading g b id entries) :
    Befits g b id (.dict entries) where
  leaf := fun hread => (not_hasReader_of_collection (by rw [h]; decide) hread).elim
  text := fun _ hs => by cases hs
  dict := fun _ => ⟨entries, rfl, hr⟩

/-- Only texts are read as texts. -/
theorem tag_of_text {s : String} (h : Scalar.reader? tag = some read)
    (hv : read text = .ok (.text s)) : tag = standard "str" ∧ s = String.ofList text := by
  rcases reader_cases h with ⟨rfl, rfl⟩ | ⟨rfl, rfl⟩ | ⟨rfl, rfl⟩ | ⟨rfl, rfl⟩ | ⟨rfl, rfl⟩ |
    ⟨rfl, rfl⟩ | ⟨rfl, rfl⟩
  · cases hv
  · unfold Scalar.readBool at hv
    dsimp only at hv
    split at hv
    · cases hv
    · split at hv <;> cases hv
  · unfold Scalar.readInt at hv
    split at hv
    · cases hv
    · obtain ⟨_, _, he⟩ := map_eq_ok.mp hv
      cases he
  · unfold Scalar.readFloat at hv
    split at hv
    · cases hv
    · obtain ⟨_, _, he⟩ := map_eq_ok.mp hv
      cases he
  · unfold Scalar.readBinary at hv
    dsimp only at hv
    split at hv
    · split at hv <;> cases hv
    · cases hv
  · unfold Scalar.readTimestamp at hv
    dsimp only at hv
    split at hv
    · cases hv
    · split at hv <;> split at hv <;> cases hv
  · cases hv
    exact ⟨rfl, rfl⟩

/-- The value of a scalar's content. -/
theorem befits_leaf (hs : Steady g b.graph)
    (hr : Scalar.reader? (b.graph.node id).tag = some read)
    (hv : scalarValue b.graph frames (b.graph.node id).tag read id = .ok v) :
    Befits g b id (.leaf v) where
  leaf := by
    rintro ⟨tag, text, read', hn, hr'⟩
    have hn' := hs.scalar hn hr'
    have htag : (b.graph.node id).tag = tag := by rw [hn']; rfl
    rw [htag] at hr hv
    cases frames with
    | zero => simp [scalarValue, scalarText, bind, Except.bind] at hv
    | succ frames =>
      rw [scalarValue_scalar hn'] at hv
      exact ⟨v, rfl, tag, text, read, hn, hr, hv⟩
  text := by
    intro s hv' hm
    cases hv'
    have hf := hs.form id
    rw [← hs.isMapping id] at hm
    cases frames with
    | zero => simp [scalarValue, scalarText, bind, Except.bind] at hv
    | succ frames =>
      cases hn : b.graph.node id with
      | scalar tag text =>
        have htag : (b.graph.node id).tag = tag := by rw [hn]; rfl
        rw [htag] at hr hv
        rw [scalarValue_scalar hn] at hv
        obtain ⟨rfl, rfl⟩ := tag_of_text hr hv
        exact hs.isText (by rw [hn]; simp)
      | brokenScalar tag codes =>
        have htag : (b.graph.node id).tag = tag := by rw [hn]; rfl
        rw [htag] at hr hv
        have hread : tag ≠ standard "str" ∧ read (codes.map replaced) = .ok (.text s) := by
          simp only [scalarValue, scalarText, hn, Node.isMapping, Bool.and_false] at hv
          by_cases hstr : tag = standard "str"
          · simp [hstr, bind, Except.bind, pure, Except.pure] at hv
          · exact ⟨hstr, by simpa [hstr, bind, Except.bind, pure, Except.pure] using hv⟩
        exact (hread.1 (tag_of_text hr hread.2).1).elim
      | sequence tag items => simp [scalarValue, scalarText, hn, bind, Except.bind] at hv
      | mapping tag es => simp [hn, Node.isMapping] at hm
  dict := by
    intro ht
    have hcol : isCollectionTag (g.node id).tag = true := by
      rw [ht]
      decide
    rw [hs.tag_eq (by rw [ht]; decide), reader?_of_collection hcol] at hr
    cases hr

end Builder

end CeilingGate.Yaml
