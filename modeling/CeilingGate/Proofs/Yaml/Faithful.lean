import CeilingGate.Proofs.Yaml.Contents

/-! Building gives each node a content that is its own, and leaves no collection unfilled. -/
namespace CeilingGate.Yaml.Builder

open CeilingGate.Yaml.Graph

variable {g : Graph} {b b' : Builder} {id root : NodeId} {frames rounds : Nat} {deep : Bool}
  {k v : Value} {c : Content} {entries : List (Value × NodeId)} {es : List (NodeId × NodeId)}
  {unfilled : NodeId → Prop}

/-- A builder after some steps. -/
structure Later (g : Graph) (unfilled : NodeId → Prop) (b b' : Builder) : Prop where
  faithful : Faithful g unfilled b'
  grows : Grows b b'

theorem Faithful.here (h : Faithful g unfilled b) : Later g unfilled b b := ⟨h, grows_refl b⟩

theorem Later.trans {b'' : Builder} (h : Later g unfilled b b') (h' : Later g unfilled b' b'') :
    Later g unfilled b b'' := ⟨h'.faithful, h.grows.trans h'.grows⟩

/-- The calls that may be made with so many left. -/
structure BuildsFaithfully (g : Graph) (frames : Nat) : Prop where
  build : ∀ unfilled deep b id, Faithful g unfilled b →
    Gives (fun b' => Later g unfilled b b' ∧ b'.IsBuilt id) (build deep frames b id)
  fill : ∀ unfilled deep b id, Faithful g (fun a => unfilled a ∨ a = id) b →
    isCollectionTag (g.node id).tag = true →
      Gives (fun b' => Later g unfilled b b' ∧ b'.IsBuilt id) (fill deep frames b id)
  sequence : ∀ unfilled deep b items, Faithful g unfilled b →
    Gives (Later g unfilled b) (sequence deep frames b items)
  mapping : ∀ unfilled deep b id, Faithful g unfilled b →
    Gives (fun r => Later g unfilled b r.1 ∧ IsReading g r.1 id r.2) (mapping deep frames b id)

theorem buildsFaithfully_zero : BuildsFaithfully g 0 where
  build := fun _ _ _ _ _ => trivial
  fill := fun _ _ _ _ _ _ => trivial
  sequence := fun _ _ _ _ _ => trivial
  mapping := fun _ _ _ _ _ => trivial

theorem isBuilt_setContent (b : Builder) (id : NodeId) (c : Content) :
    (b.setContent id c).IsBuilt id := by
  intro hid
  have hid' : id < b.contents.size := by simpa [setContent] using hid
  rw [content?_setContent, if_pos ⟨rfl, hid'⟩]
  rfl

/-- A node gets a content that befits it. -/
theorem Faithful.laterContent (h : Faithful g (fun a => unfilled a ∨ a = id) b)
    (hc : Befits g b id c) :
    Later g unfilled b (b.setContent id c) ∧ (b.setContent id c).IsBuilt id :=
  ⟨⟨h.setContent hc, grows_setContent b id c⟩, isBuilt_setContent b id c⟩

/-- A collection begins to wait. -/
theorem Faithful.wait (h : Faithful g unfilled b) (hid : isCollectionTag (g.node id).tag = true)
    (hnone : b.content? id = none) (hc : ∀ v, c ≠ .leaf v) :
    Later g unfilled b { b.setContent id c with waiting := b.waiting ++ [id] } := by
  have hsize : id < b.contents.size := by
    rw [h.size]
    refine lt_size_of_tag fun hnull => ?_
    rw [hnull] at hid
    exact absurd hid (by decide)
  have hgrows := grows_wait hsize hnone c
  have hcontent : ∀ a d, (b.setContent id c).content? a = some d → a = id ∧ d = c ∨
      a ≠ id ∧ b.content? a = some d := by
    intro a d hd
    rw [content?_setContent] at hd
    split at hd
    · next ha =>
      cases hd
      exact Or.inl ⟨ha.1.symm, rfl⟩
    · next ha => exact Or.inr ⟨fun he => ha ⟨he.symm, hsize⟩, hd⟩
  refine ⟨⟨h.graph, hgrows.size.trans h.size, ?_, ?_, ?_, ?_⟩, hgrows⟩
  · intro a ha
    rcases List.mem_append.mp ha with ha | ha
    · exact h.waiting a ha
    · rw [List.mem_singleton.mp ha]
      exact hid
  · intro a d hr hd
    obtain ⟨rfl, _⟩ | ⟨_, hd⟩ := hcontent a d hd
    · exact (not_hasReader_of_collection hid hr).elim
    · exact h.leaf a d hr hd
  · intro a s hd hm
    obtain ⟨_, hd⟩ | ⟨_, hd⟩ := hcontent a _ hd
    · exact (hc _ hd.symm).elim
    · exact h.text a s hd hm
  · intro a d ht hd hw hn
    obtain ⟨rfl, _⟩ | ⟨_, hd⟩ := hcontent a d hd
    · exact (hw (by simp)).elim
    · obtain ⟨entries, he, hr⟩ := h.dict a d ht hd (fun ha => hw (by simp [ha])) hn
      exact ⟨entries, he, hr.mono hgrows⟩

theorem emptyContent_ne_leaf (tag : String) (v : Value) : emptyContent tag ≠ .leaf v := by
  unfold emptyContent
  split
  · simp
  · split
    · simp
    · split <;> simp

theorem build_faithful (h : BuildsFaithfully g frames) (hb : Faithful g unfilled b) :
    Gives (fun b' => Later g unfilled b b' ∧ b'.IsBuilt id)
      (Builder.build deep (frames + 1) b id) := by
  rw [Builder.build]
  split
  · next hc => exact ⟨hb.here, fun _ => hc⟩
  · next hc =>
    split
    · trivial
    · dsimp only
      split
      · next read hread =>
        rw [gives_iff]
        intro b' hb'
        obtain ⟨v, hv, hb'⟩ := bind_eq_ok.mp hb'
        cases hb'
        exact (hb.mono fun a ha => Or.inl ha).laterContent (befits_leaf hb.graph hread hv)
      · split
        · next hcol =>
          have htag : isCollectionTag (g.node id).tag = true := by
            rw [hb.graph.tag_of_collection hcol]
            exact hcol
          split
          · have hopen : Faithful g (fun a => unfilled a ∨ a = id)
                { b with underWay := id :: b.underWay } :=
              (hb.setUnderWay _).mono fun a ha => Or.inl ha
            refine (h.fill unfilled true _ id hopen htag).bind ?_
            rintro b' ⟨⟨hf, hg⟩, hbuilt⟩
            exact ⟨⟨hf.setUnderWay _, hg.size, hg.contents, hg.debt⟩, hbuilt⟩
          · have hnone : b.content? id = none := by simpa using hc
            exact ⟨hb.wait htag hnone (emptyContent_ne_leaf _), isBuilt_setContent b id _⟩
        · trivial

theorem sequence_faithful {items : List NodeId} (h : BuildsFaithfully g frames)
    (hb : Faithful g unfilled b) :
    Gives (Later g unfilled b) (Builder.sequence deep (frames + 2) b items) := by
  rw [Builder.sequence]
  refine Ends.foldlM hb.here ?_
  intro b' hb' item _
  refine (h.build unfilled deep b' item hb'.faithful).mono (fun _ h => h) ?_
  rintro b'' ⟨hlater, _⟩
  exact hb'.trans hlater

theorem addPair_faithful {acc : Builder × List (NodeId × NodeId)} (h : BuildsFaithfully g frames)
    (hb : Faithful g unfilled acc.1) (item : NodeId) :
    Gives (fun r => Later g unfilled acc.1 r.1)
      (addPair (fun b id => Builder.build deep frames b id) acc item) := by
  obtain ⟨b, done⟩ := acc
  rw [addPair]
  split
  · next key value _ =>
    refine (h.build unfilled deep b key hb).bind ?_
    rintro b' ⟨hlater, _⟩
    refine (h.build unfilled deep b' value hlater.faithful).bind ?_
    rintro b'' ⟨hlater', _⟩
    exact hlater.trans hlater'
  · trivial
  · trivial

theorem Later.setContent (h : Later g (fun a => unfilled a ∨ a = id) b b') (hc : Befits g b' id c) :
    Later g unfilled b (b'.setContent id c) ∧ (b'.setContent id c).IsBuilt id := by
  obtain ⟨hlater, hbuilt⟩ := h.faithful.laterContent hc
  exact ⟨⟨hlater.faithful, h.grows.trans hlater.grows⟩, hbuilt⟩

/-- Filling a collection gives it a content that befits it. -/
theorem fill_faithful (h : BuildsFaithfully g frames)
    (hb : Faithful g (fun a => unfilled a ∨ a = id) b)
    (htag : isCollectionTag (g.node id).tag = true) :
    Gives (fun b' => Later g unfilled b b' ∧ b'.IsBuilt id)
      (Builder.fill deep (frames + 1) b id) := by
  have hsame : (b.graph.node id).tag = (g.node id).tag := by
    refine hb.graph.tag_eq fun hvalue => ?_
    rw [hvalue] at htag
    exact absurd htag (by decide)
  rw [Builder.fill]
  dsimp only
  rw [hsame]
  split
  · next hseq =>
    have hne : (g.node id).tag ≠ standard "map" := by
      rw [eq_of_beq hseq]
      decide
    split
    · next items _ =>
      refine (h.sequence _ deep b items hb).bind ?_
      intro b' hb'
      exact hb'.setContent (befits_collection htag hne (by simp))
    · trivial
  · split
    · next hmap =>
      refine (h.mapping _ deep b id hb).bind ?_
      rintro ⟨b', entries⟩ ⟨hb', hr⟩
      exact hb'.setContent (befits_dict (eq_of_beq hmap) hr)
    · next hmap =>
      have hne : (g.node id).tag ≠ standard "map" := by simpa using hmap
      split
      · refine (h.mapping _ deep b id hb).bind ?_
        rintro ⟨b', entries⟩ ⟨hb', _⟩
        exact hb'.setContent (befits_collection htag hne (by simp))
      · split
        · next items _ =>
          refine (Ends.foldlM (S := fun acc => Later g (fun a => unfilled a ∨ a = id) b acc.1)
            hb.here ?_).bind ?_
          · intro acc hacc item _
            refine (addPair_faithful h hacc.faithful item).mono (fun _ h => h) ?_
            intro r hr
            exact hacc.trans hr
          · rintro ⟨b', entries⟩ hb'
            exact hb'.setContent (befits_collection htag hne (by simp))
        · trivial

/-! ## Keys -/

/-- What a builder sees of a scalar is what it reads as. -/
theorem Faithful.value_readsAs (h : Faithful g unfilled b) (hbuilt : b.IsBuilt id)
    (hr : g.HasReader id) (depth : Nat) : g.ReadsAs id (b.value depth id) := by
  unfold value
  cases hc : b.content? id with
  | some c =>
    obtain ⟨v, rfl, hv⟩ := h.leaf id c hr hc
    exact hv
  | none =>
    -- Only a place outside the graph has no content, and it counts as empty.
    have hid : ¬ id < g.size := by
      intro hid
      have hsome := hbuilt (h.size ▸ hid)
      rw [hc] at hsome
      cases hsome
    have hn : g.node id = .scalar (standard "null") [] := by
      unfold Graph.node
      rw [Array.getElem?_eq_none (Nat.le_of_not_lt hid)]
      rfl
    exact ⟨_, _, _, hn, rfl, rfl⟩

theorem content?_of_value_eq_text {depth : Nat} {s : String} (h : b.value depth id = .text s) :
    b.content? id = some (.leaf (.text s)) := by
  unfold value at h
  split at h
  · cases h
  · next hc =>
    rw [hc, h]
  all_goals cases h

theorem mapM_textEntry {named : List (RawText × NodeId)} (h : entries.mapM textEntry = .ok named) :
    (entries.map fun e => (e.1, b.value 0 e.2)).mapM (fun e => e.1.text?.map fun t => (t, e.2)) =
      some (named.map fun e => (e.1, b.value 0 e.2)) := by
  induction entries generalizing named with
  | nil =>
    cases h
    rfl
  | cons e rest ih =>
    rw [List.mapM_cons] at h
    obtain ⟨first, hfirst, h⟩ := bind_eq_ok.mp h
    obtain ⟨others, hothers, h⟩ := bind_eq_ok.mp h
    cases h
    unfold textEntry at hfirst
    split at hfirst
    · next t ht =>
      cases hfirst
      simp [ht, ih hothers]
    · cases hfirst

/-- The key that a builder makes of the entries of a mapping. -/
theorem isFrozen_of_frozenKey (h : b.frozenKey frames entries = .ok k) :
    IsFrozen (entries.map fun e => (e.1, b.value 0 e.2)) k := by
  obtain ⟨named, hnamed, h⟩ := bind_eq_ok.mp h
  obtain ⟨sorted, hsorted, h⟩ := bind_eq_ok.mp h
  cases h
  obtain ⟨hperm, horder⟩ := gives_iff.mp (sortEntries_inOrder b frames named) sorted hsorted
  refine ⟨_, sorted.map fun e => (e.1, b.value 0 e.2), mapM_textEntry hnamed, hperm.map _, ?_, ?_⟩
  · exact List.pairwise_map.mpr horder
  · simp [frozenPair, Function.comp_def]

/-- Entries of scalars, as a builder sees them. -/
theorem Faithful.entries_readAs {kids : List (Value × NodeId)} (hb : Faithful g unfilled b)
    (hkeys : List.Forall₂ (fun e kv => IsKeyOf g e.1 kv.1 ∧ kv.2 = e.2 ∧ b.IsBuilt kv.2) es kids)
    (hr : ∀ e ∈ es, g.HasReader e.1 ∧ g.HasReader e.2) :
    List.Forall₂ (fun e kv => g.ReadsAs e.1 kv.1 ∧ g.ReadsAs e.2 kv.2) es
      (kids.map fun e => (e.1, b.value 0 e.2)) := by
  induction hkeys with
  | nil => exact .nil
  | cons hkey _ ih =>
    obtain ⟨hk, hsame, hbuilt⟩ := hkey
    obtain ⟨hkr, hcr⟩ := hr _ List.mem_cons_self
    refine .cons ⟨hk.scalar hkr, ?_⟩ (ih fun e he => hr e (List.mem_cons_of_mem _ he))
    rw [← hsame] at hcr ⊢
    exact hb.value_readsAs hbuilt hcr 0

/-- The key of a mapping node. -/
theorem isKeyOf_frozen (hb : Faithful g unfilled b) (hm : (g.node id).isMapping = true)
    (hr : IsReading g b id entries) (hk : b.frozenKey frames entries = .ok k) : IsKeyOf g id k := by
  have hfrozen := isFrozen_of_frozenKey hk
  refine ⟨?_, ?_, ?_⟩
  · intro hread
    rw [hread.not_isMapping] at hm
    cases hm
  · rintro s rfl
    obtain ⟨_, _, _, _, _, hk⟩ := hfrozen
    cases hk
  · intro tag es hn hplain hscalars
    obtain ⟨g', kids, hs, hkeys, rfl⟩ := hr
    have hes : g'.entries id = es := by
      rw [hs.plain id hplain, Graph.entries, hn]
    rw [hes] at hkeys
    exact ⟨_, hb.entries_readAs hkeys hscalars, by rwa [Value.ofEntries_map]⟩

theorem keyValue_faithful (h : BuildsFaithfully g frames) (hb : Faithful g unfilled b)
    (key : NodeId) :
    Gives (fun r => Later g unfilled b r.1 ∧ (r.2.isHashable = true → IsKeyOf g key r.2))
      (keyValue frames (fun b id => Builder.mapping true frames b id)
        (fun b id => Builder.build deep frames b id) b key) := by
  unfold keyValue
  split
  · next hm =>
    rw [hb.graph.isMapping] at hm
    refine (h.mapping unfilled true b key hb).bind ?_
    rintro ⟨b', inner⟩ ⟨hb', hr⟩
    refine gives_iff.mpr fun r hr' => ?_
    obtain ⟨k, hk, hr'⟩ := bind_eq_ok.mp hr'
    cases hr'
    exact ⟨hb', fun _ => isKeyOf_frozen hb'.faithful hm hr hk⟩
  · next hm =>
    rw [hb.graph.isMapping] at hm
    refine (h.build unfilled deep b key hb).bind ?_
    rintro b' ⟨hb', hbuilt⟩
    refine ⟨hb', fun hhash => ⟨?_, ?_, ?_⟩⟩
    · exact fun hr => hb'.faithful.value_readsAs hbuilt hr 0
    · intro s hs
      exact hb'.faithful.text key s (content?_of_value_eq_text hs) (by simpa using hm)
    · intro tag es hn
      rw [hn] at hm
      exact (hm rfl).elim

/-- The entries of a mapping that have been read so far. -/
def ReadSoFar (g : Graph) (unfilled : NodeId → Prop) (b : Builder) (es : List (NodeId × NodeId))
    (acc : Builder × List (Value × NodeId)) : Prop :=
  Later g unfilled b acc.1 ∧ ∃ kvs,
    List.Forall₂ (fun e kv => IsKeyOf g e.1 kv.1 ∧ kv.2 = e.2 ∧ acc.1.IsBuilt kv.2) es kvs ∧
      acc.2 = Value.ofEntries kvs

theorem addEntry_faithful (h : BuildsFaithfully g frames)
    {acc : Builder × List (Value × NodeId)} (hacc : ReadSoFar g unfilled b es acc)
    (e : NodeId × NodeId) :
    Gives (ReadSoFar g unfilled b (es ++ [e]))
      (addEntry
        (keyValue frames (fun b id => Builder.mapping true frames b id)
          fun b id => Builder.build deep frames b id)
        (fun b id => Builder.build deep frames b id) acc e) := by
  obtain ⟨b₀, done⟩ := acc
  obtain ⟨key, content⟩ := e
  obtain ⟨h₀, kvs, hkvs, hdone⟩ := hacc
  rw [addEntry]
  refine (keyValue_faithful h h₀.faithful key).bind ?_
  rintro ⟨b₁, k⟩ ⟨h₁, hk⟩
  dsimp only
  split
  · trivial
  · next hhash =>
    refine (h.build unfilled deep b₁ content h₁.faithful).bind ?_
    rintro b₂ ⟨h₂, hbuilt⟩
    have hgrows := h₁.grows.trans h₂.grows
    refine ⟨h₀.trans (h₁.trans h₂), kvs ++ [(k, content)], ?_, ?_⟩
    · refine List.rel_append (hkvs.imp fun _ _ hkv => ⟨hkv.1, hkv.2.1, hkv.2.2.mono hgrows⟩) ?_
      exact .cons ⟨hk (by simpa using hhash), rfl, hbuilt⟩ .nil
    · rw [Value.ofEntries_concat, ← hdone]

theorem mapping_faithful (h : BuildsFaithfully g frames) (hb : Faithful g unfilled b) :
    Gives (fun r => Later g unfilled b r.1 ∧ IsReading g r.1 id r.2)
      (Builder.mapping deep (frames + 1) b id) := by
  rw [Builder.mapping]
  split
  · refine (flatten_steady hb.graph frames id).bind ?_
    intro g' hg'
    have hstart : ReadSoFar g unfilled b [] ({ b with graph := g' }, []) :=
      ⟨⟨hb.setGraph hg', rfl, fun _ h => h, Nat.le_refl _⟩, [], .nil, rfl⟩
    refine (Ends.foldlM_taken (S := ReadSoFar g unfilled b) hstart
      fun es acc hacc e _ => addEntry_faithful h hacc e).mono (fun _ h => h) ?_
    rintro ⟨b', entries⟩ ⟨hb', kvs, hkvs, he⟩
    exact ⟨hb', g', kvs, hg', hkvs, he⟩
  · trivial

theorem buildsFaithfully (g : Graph) (frames : Nat) : BuildsFaithfully g frames := by
  induction frames using Nat.strongRecOn with
  | ind frames ih =>
    cases frames with
    | zero => exact buildsFaithfully_zero
    | succ frames =>
      have h := ih frames (by omega)
      refine ⟨fun _ _ _ _ => build_faithful h, fun _ _ _ _ => fill_faithful h, ?_,
        fun _ _ _ _ => mapping_faithful h⟩
      intro unfilled deep b items hb
      cases frames with
      | zero => trivial
      | succ frames => exact sequence_faithful (ih frames (by omega)) hb

/-! ## Documents -/

/-- Filling the collections that wait leaves none, since each round pays off a part of the debt. -/
theorem fillWaiting_faithful (hb : Faithful g (fun _ => False) b) (hdebt : b.debt < rounds) :
    Gives (fun b' => Later g (fun _ => False) b b' ∧ b'.waiting = []) (fillWaiting rounds b) := by
  induction rounds generalizing b with
  | zero => exact absurd hdebt (by omega)
  | succ rounds ih =>
    unfold fillWaiting
    split
    · next hw => exact ⟨hb.here, hw⟩
    · next id rest hw =>
      have hpaid : Builder.debt { b with waiting := rest } < b.debt := by
        unfold debt
        simp [hw]
      have hrest : Faithful g (fun a => False ∨ a = id) { b with waiting := rest } := by
        refine ⟨hb.graph, hb.size, fun a ha => hb.waiting a (by simp [hw, ha]), hb.leaf, hb.text, ?_⟩
        intro a c ht hc hwait hopen
        refine hb.dict a c ht hc ?_ fun h => h
        rw [hw]
        rintro hmem
        rcases List.mem_cons.mp hmem with rfl | hmem
        · exact hopen (Or.inr rfl)
        · exact hwait hmem
      refine ((buildsFaithfully g frameLimit).fill _ false _ id hrest
        (hb.waiting id (by simp [hw]))).bind ?_
      rintro b' ⟨hb', _⟩
      have hdebt' : b'.debt < rounds := by
        have := hb'.grows.debt
        omega
      refine (ih hb'.faithful hdebt').mono (fun _ h => h) ?_
      rintro b'' ⟨hb'', hdone⟩
      have hpop : Grows b { b with waiting := rest } := ⟨rfl, fun _ h => h, Nat.le_of_lt hpaid⟩
      exact ⟨⟨hb''.faithful, hpop.trans (hb'.grows.trans hb''.grows)⟩, hdone⟩

theorem fresh_faithful (g : Graph) : Faithful g (fun _ => False) (fresh g) where
  graph := steady_refl g
  size := by simp [fresh]
  waiting := by simp [fresh]
  leaf := fun _ _ _ hc => by simp at hc
  text := fun _ _ hc => by simp at hc
  dict := fun _ _ _ hc => by simp at hc

/-- The contents of a document are those of its nodes, and all collections are filled. -/
theorem ofGraph_faithful (g : Graph) (root : NodeId) :
    Gives (fun b => Faithful g (fun _ => False) b ∧ b.waiting = [] ∧ b.IsBuilt root)
      (ofGraph g root) := by
  rw [ofGraph_eq]
  refine ((buildsFaithfully g frameLimit).build _ false _ root (fresh_faithful g)).bind ?_
  rintro b ⟨hb, hbuilt⟩
  have hdebt : b.debt < g.size + 1 := by
    have hfresh : (fresh g).debt = g.size := by simp [debt, fresh, Array.countP_replicate]
    have := hb.grows.debt
    omega
  refine (fillWaiting_faithful hb.faithful hdebt).mono (fun _ h => h) ?_
  rintro b' ⟨hb', hdone⟩
  exact ⟨hb'.faithful, hdone, hbuilt.mono hb'.grows⟩

theorem faithful_of_ofGraph (h : ofGraph g root = .ok b) :
    Faithful g (fun _ => False) b ∧ b.waiting = [] ∧ b.IsBuilt root :=
  gives_iff.mp (ofGraph_faithful g root) b h

end CeilingGate.Yaml.Builder
