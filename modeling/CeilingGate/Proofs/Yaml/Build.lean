import CeilingGate.Proofs.Yaml.Compare
import CeilingGate.Proofs.Yaml.Drawn
import CeilingGate.Proofs.Yaml.Merge

/-! What stops the building of contents for good: a scalar that is unreadable under its tag, or nodes
that are inside each other too deep. What is built has keys that can be looked into. -/
namespace CeilingGate.Yaml

/-- Items of frozen mappings. -/
def IsPair (v : Value) : Prop := ∃ (t : RawText) (c : Value), v = .tuple [t.toValue, c] ∧ IsLeaf c

/-- Keys of documents: scalars, and frozen mappings, whose items pair a text with a scalar. -/
def IsKey : Value → Prop
  | .tuple items => ∀ item ∈ items, IsPair item
  | k => IsLeaf k

theorem IsLeaf.isKey {v : Value} (h : IsLeaf v) : IsKey v := by
  cases v <;> first | exact h | exact h.elim

theorem isHashable_of_mem {items : List Value} {item : Value}
    (h : Value.allHashable items = true) (hi : item ∈ items) : item.isHashable = true := by
  induction items with
  | nil => cases hi
  | cons first rest ih =>
    obtain ⟨hfirst, hrest⟩ := Bool.and_eq_true_iff.mp h
    rcases List.mem_cons.mp hi with rfl | hi
    · exact hfirst
    · exact ih hrest hi

/-- The text of a scalar as its reader sees it. -/
def Node.text? : Node → Option (List Char)
  | .scalar _ text => some text
  | .brokenScalar _ codes => some (codes.map Builder.replaced)
  | _ => none

theorem Node.text?_of_form {n m : Node} (h : n.form = m.form) : n.text? = m.text? := by
  cases n <;> cases m <;> simp_all [Node.form, Node.text?]

/-- A node that a way leads to has a tag under which the text that stands for it is unreadable. -/
def Graph.HasUnreadable (g : Graph) (root : NodeId) (a : Abort) : Prop :=
  ∃ n id m source text, g.Walk root n id ∧ g.Walk id m source ∧
    (g.node source).text? = some text ∧ Unreadable (g.node id).tag text a

/-- How building from a root can stop for good: somewhere nodes are too deep for so many calls, or a
scalar is unreadable. -/
def Graph.Stops (g : Graph) (root : NodeId) (limit : Nat) (a : Abort) : Prop :=
  (a = .tooDeep ∧ g.TooDeep root limit) ∨ g.HasUnreadable root a

namespace Builder

variable {g : Graph} {b b' b'' : Builder} {id root : NodeId} {limit frames : Nat} {deep : Bool}
  {read : List Char → Except Failure Value} {tag : String} {text : List Char} {k v : Value} {a : Abort}

open CeilingGate.Yaml.Graph

/-- Contents whose leaves are scalars and whose keys are keys. -/
def Content.HasKeys : Content → Prop
  | .leaf v => IsLeaf v
  | .dict entries => ∀ e ∈ entries, IsKey e.1
  | _ => True

/-- What a content of a node is like: what it names is inside the node. -/
structure Content.IsSound (g : Graph) (id : NodeId) (c : Content) : Prop where
  keys : Content.HasKeys c
  parts : ∀ part ∈ c.parts, g.Inside id part

/-- What is true of a builder that builds a document from a graph. -/
structure Sound (g : Graph) (b : Builder) : Prop where
  graph : Merged g b.graph
  contents : ∀ id c, b.content? id = some c → Content.IsSound g id c

/-- A builder after a call that has ended. What waits now did so before or is reached from the root. -/
structure After (g : Graph) (root : NodeId) (b b' : Builder) : Prop where
  sound : Sound g b'
  underWay : b'.underWay = b.underWay
  waiting : ∀ id ∈ b'.waiting, id ∈ b.waiting ∨ g.Reaches root id

theorem after_refl (h : Sound g b) : After g root b b := ⟨h, rfl, fun _ hid => .inl hid⟩

theorem After.trans (h : After g root b b') (h' : After g root b' b'') : After g root b b'' where
  sound := h'.sound
  underWay := h'.underWay.trans h.underWay
  waiting := fun id hid => (h'.waiting id hid).elim (h.waiting id) .inr

/-- The entries that a mapping is read with: their contents stand in it, or in one that it merges. -/
def IsEntryOf (g : Graph) (id : NodeId) (e : Value × NodeId) : Prop :=
  IsKey e.1 ∧ ∃ key, g.Draws id (key, e.2)

theorem flatten_ends_merged {g' : Graph} (hg : Merged g g') (hr : g.Reached root limit frames 3 id) :
    Ends (g.Stops root limit) (Merged g) (g'.flatten frames id) := by
  have hends := flatten_ends (P := g.Stops root limit) (fun h => Or.inl ⟨rfl, h⟩) hg.derived hr
  rw [ends_iff] at hends ⊢
  exact ⟨gives_iff.mp (flatten_merged hg frames id), hends.2⟩

theorem scalarText_ends (hg : Derived g b.graph) (hr : g.Reached root limit frames 1 id) :
    Ends (fun a => a = .tooDeep ∧ g.TooDeep root limit)
      (fun text => ∃ m source, g.Walk id m source ∧ (g.node source).text? = some text)
      (scalarText b.graph frames id) := by
  induction frames generalizing id with
  | zero => exact ⟨rfl, hr.tooDeep (by omega)⟩
  | succ frames ih =>
    have htext := Node.text?_of_form (hg.form id)
    unfold scalarText
    split
    · next hn =>
      rw [hn] at htext
      exact ⟨0, id, .here, htext.symm⟩
    · next hn =>
      rw [hn] at htext
      exact ⟨0, id, .here, htext.symm⟩
    · next es hn =>
      split
      · next key content hfind =>
        have he : g.Holds id (key, content) := by
          refine hg.entry ?_
          unfold Graph.entries
          rw [hn]
          exact List.mem_of_find?_eq_some hfind
        obtain ⟨m, hm⟩ := he.2
        have hcontent := (hr.call.enter (by omega) he.2).mono (Nat.le_refl _) (Nat.zero_le 1)
        refine (ih hcontent).mono (fun _ ha => ha) ?_
        rintro text ⟨m', source, hw, ht⟩
        exact ⟨m + 1 + m', source, hm.append hw, ht⟩
      · trivial
    · trivial

theorem scalarValue_ends (hg : Derived g b.graph) (hr : g.Reached root limit frames 1 id)
    (h : Scalar.reader? (b.graph.node id).tag = some read) :
    Ends (g.Stops root limit) IsLeaf (scalarValue b.graph frames (b.graph.node id).tag read id) := by
  have hread : ∀ text, (∃ m source, g.Walk id m source ∧ (g.node source).text? = some text) →
      Ends (g.Stops root limit) IsLeaf (read text) := by
    rintro text ⟨m, source, hw, ht⟩
    rw [ends_iff]
    refine ⟨fun v hv => reader_leaf h hv, ?_⟩
    intro a ha
    obtain ⟨n, hn, _⟩ := hr
    have hu := (reader_eq_abort_iff h).mp ha
    rcases hg.tag id with htag | htag
    · rw [htag] at hu
      exact Or.inr ⟨n, id, m, source, text, hn, hw, ht, hu⟩
    · rw [htag] at hu
      cases hu <;> simp_all
  unfold scalarValue
  refine ((scalarText_ends hg hr).mono (fun a ha => Or.inl ha) fun _ h => h).bind ?_
  intro text htext
  dsimp only
  split
  · trivial
  · split
    · split
      · trivial
      · exact hread text htext
    · exact hread text htext

theorem Sound.setContent (h : Sound g b) {c : Content} {id : NodeId}
    (hc : Content.IsSound g id c) : Sound g (b.setContent id c) where
  graph := h.graph
  contents := by
    intro a d hd
    unfold Builder.content? Builder.setContent at hd
    rw [Array.getElem?_setIfInBounds] at hd
    split at hd
    · next ha =>
      subst ha
      split at hd
      · cases hd
        exact hc
      · cases hd
    · exact h.contents a d hd

theorem After.setContent (h : After g root b b') {c : Content} (hc : Content.IsSound g id c) :
    After g root b (b'.setContent id c) := ⟨h.sound.setContent hc, h.underWay, h.waiting⟩

theorem Sound.setGraph {g' : Graph} (h : Sound g b) (hg : Merged g g') :
    Sound g { b with graph := g' } := ⟨hg, h.contents⟩

theorem Sound.setUnderWay (h : Sound g b) (ids : List NodeId) :
    Sound g { b with underWay := ids } := ⟨h.graph, h.contents⟩

theorem emptyContent_isSound (g : Graph) (id : NodeId) (tag : String) :
    Content.IsSound g id (emptyContent tag) := by
  unfold emptyContent
  split
  · exact ⟨by simp [Content.HasKeys], by simp [Content.parts]⟩
  · split
    · exact ⟨trivial, by simp [Content.parts]⟩
    · split
      · exact ⟨trivial, by simp [Content.parts]⟩
      · exact ⟨trivial, by simp [Content.parts, pairNodes]⟩

theorem Sound.inside_of_names (h : Sound g b) {x y : NodeId} (hn : b.Names x y) : g.Inside x y := by
  obtain ⟨c, hc, hy⟩ := hn
  exact (h.contents x c hc).parts y hy

/-- What a builder sees of a node is a scalar if it can be looked up. -/
theorem Sound.value_isLeaf (h : Sound g b) (depth : Nat) (id : NodeId)
    (hk : (b.value depth id).isHashable = true) : IsLeaf (b.value depth id) := by
  unfold value at hk ⊢
  split at hk
  · trivial
  · next hc => exact (h.contents _ _ hc).keys
  · simp [Value.isHashable] at hk
  · simp [Value.isHashable] at hk
  · simp [Value.isHashable] at hk
  · simp [Value.isHashable] at hk
  · simp [Value.isHashable] at hk
  · simp [Value.isHashable] at hk
  · simp [Value.isHashable] at hk

/-- A frozen key whose contents are scalars pairs texts with them. -/
theorem Sound.frozenKey_gives (h : Sound g b) (frames : Nat) (entries : List (Value × NodeId)) :
    Gives (fun k => k.isHashable = true → IsKey k) (b.frozenKey frames entries) := by
  unfold frozenKey
  refine Ends.bind gives_true fun named _ => Ends.bind gives_true fun sorted _ => ?_
  intro hhash item hi
  have hitem := isHashable_of_mem hhash hi
  obtain ⟨e, -, rfl⟩ := List.mem_map.mp hi
  exact ⟨e.1, _, rfl, h.value_isLeaf 0 e.2 (isHashable_of_mem hitem (by simp))⟩

/-- Comparing the contents of a key takes no more calls than the ways down them are long. -/
theorem Sound.frozenKey_ends (h : Sound g b) {entries : List (Value × NodeId)}
    (he : ∀ e ∈ entries, g.Reached root limit frames 0 e.2) :
    Ends (g.Stops root limit) (fun k => k.isHashable = true → IsKey k)
      (b.frozenKey frames entries) := by
  have hends := Builder.frozenKey_ends (b := b) (P := g.Stops root limit)
    (S := fun n x => g.Reached root limit n 0 x) (fun x hx => Or.inl ⟨rfl, hx.tooDeep (by omega)⟩)
    (fun n x x' hx hn => hx.call.enter (by omega) (h.inside_of_names hn)) he
  rw [ends_iff] at hends ⊢
  exact ⟨gives_iff.mp (h.frozenKey_gives frames entries), hends.2⟩

/-- The calls that may be made with so many left, each at a node that is reached in accordance. -/
structure Builds (g : Graph) (root : NodeId) (limit frames : Nat) : Prop where
  build : ∀ deep b id, Sound g b → g.Reached root limit frames 0 id →
    Ends (g.Stops root limit) (After g root b) (build deep frames b id)
  fill : ∀ deep b id, Sound g b → g.Reached root limit frames 1 id →
    Ends (g.Stops root limit) (After g root b) (fill deep frames b id)
  sequence : ∀ deep b id items, Sound g b → g.Reached root limit frames 2 id →
    (∀ item ∈ items, g.Inside id item) →
      Ends (g.Stops root limit) (After g root b) (sequence deep frames b items)
  mapping : ∀ deep b id, Sound g b → g.Reached root limit frames 2 id →
    Ends (g.Stops root limit) (fun r => After g root b r.1 ∧ ∀ e ∈ r.2, IsEntryOf g id e)
      (mapping deep frames b id)

theorem builds_zero : Builds g root limit 0 where
  build := fun _ _ _ _ hr => Or.inl ⟨rfl, hr.tooDeep (by omega)⟩
  fill := fun _ _ _ _ hr => Or.inl ⟨rfl, hr.tooDeep (by omega)⟩
  sequence := fun _ _ _ _ _ hr _ => Or.inl ⟨rfl, hr.tooDeep (by omega)⟩
  mapping := fun _ _ _ _ hr => Or.inl ⟨rfl, hr.tooDeep (by omega)⟩

theorem build_ends (h : Builds g root limit frames) (hb : Sound g b)
    (hr : g.Reached root limit (frames + 1) 0 id) :
    Ends (g.Stops root limit) (After g root b) (Builder.build deep (frames + 1) b id) := by
  rw [Builder.build]
  split
  · exact after_refl hb
  · split
    · trivial
    · dsimp only
      split
      · next read hread =>
        refine (scalarValue_ends hb.graph.derived hr.call hread).bind ?_
        intro v hv
        exact (after_refl hb).setContent (c := .leaf v) ⟨hv, by simp [Content.parts]⟩
      · split
        · split
          · refine (h.fill true _ id (hb.setUnderWay (id :: b.underWay)) hr.call).bind ?_
            intro b' hb'
            exact ⟨hb'.sound.setUnderWay (b'.underWay.erase id), by simp [hb'.underWay], hb'.waiting⟩
          · have hempty := hb.setContent (emptyContent_isSound g id (b.graph.node id).tag)
            refine ⟨⟨hempty.graph, hempty.contents⟩, rfl, ?_⟩
            intro w hw
            rcases List.mem_append.mp hw with hw | hw
            · exact .inl hw
            · rw [List.mem_singleton.mp hw]
              exact .inr hr.reaches
        · trivial

theorem sequence_ends {items : List NodeId} (h : Builds g root limit frames) (hb : Sound g b)
    (hr : g.Reached root limit (frames + 2) 2 id) (hi : ∀ item ∈ items, g.Inside id item) :
    Ends (g.Stops root limit) (After g root b) (Builder.sequence deep (frames + 2) b items) := by
  rw [Builder.sequence]
  refine Ends.foldlM (after_refl hb) ?_
  intro b' hb' item hitem
  have hbuild := h.build deep b' item hb'.sound (hr.call.call.enter (by omega) (hi item hitem))
  exact hbuild.mono (fun _ ha => ha) fun _ h => hb'.trans h

theorem addPair_ends {item : NodeId} {acc : Builder × List (NodeId × NodeId)}
    (h : Builds g root limit frames) (hr : g.Reached root limit frames 2 id)
    (hacc : After g root b acc.1 ∧ ∀ e ∈ acc.2, g.Holds id e) (hi : g.Inside id item) :
    Ends (g.Stops root limit) (fun r => After g root b r.1 ∧ ∀ e ∈ r.2, g.Holds id e)
      (addPair (fun b id => Builder.build deep frames b id) acc item) := by
  obtain ⟨b', done⟩ := acc
  rw [addPair]
  split
  · next tag key value hn =>
    have he : g.Holds item (key, value) := by
      refine hacc.1.sound.graph.derived.entry ?_
      unfold Graph.entries
      rw [hn]
      simp
    have hin := he.inside hi
    refine (h.build deep b' key hacc.1.sound (hr.enter (by omega) hin.1)).bind ?_
    intro b₁ h₁
    refine (h.build deep b₁ value h₁.sound (hr.enter (by omega) hin.2)).bind ?_
    intro b₂ h₂
    refine ⟨hacc.1.trans (h₁.trans h₂), fun e he => ?_⟩
    rcases List.mem_append.mp he with he | he
    · exact hacc.2 e he
    · rw [List.mem_singleton.mp he]
      exact hin
  · trivial
  · trivial

theorem mem_pairNodes {entries : List (NodeId × NodeId)} {x : NodeId} :
    x ∈ pairNodes entries ↔ ∃ e ∈ entries, x = e.1 ∨ x = e.2 := by
  simp [pairNodes]

theorem fill_ends (h : Builds g root limit frames) (hb : Sound g b)
    (hr : g.Reached root limit (frames + 1) 1 id) :
    Ends (g.Stops root limit) (After g root b) (Builder.fill deep (frames + 1) b id) := by
  have hitems : ∀ tag items, b.graph.node id = .sequence tag items →
      ∀ item ∈ items, g.Inside id item := by
    intro tag items hn item hi
    refine hb.graph.derived.parts id item ?_
    rw [hn]
    exact hi
  rw [Builder.fill]
  dsimp only
  split
  · split
    · next tag items hn =>
      refine (h.sequence deep b id items hb hr.call (hitems tag items hn)).bind ?_
      intro b' hb'
      exact hb'.setContent (c := .list items) ⟨trivial, hitems tag items hn⟩
    · trivial
  · split
    · refine (h.mapping deep b id hb hr.call).bind ?_
      rintro ⟨b', entries⟩ ⟨hb', he⟩
      refine hb'.setContent (c := .dict entries) ⟨fun e hmem => (he e hmem).1, fun part hp => ?_⟩
      obtain ⟨e, hmem, rfl⟩ := List.mem_map.mp hp
      obtain ⟨_, key, hdraws⟩ := he e hmem
      exact hdraws.holds.2
    · split
      · refine (h.mapping deep b id hb hr.call).bind ?_
        rintro ⟨b', entries⟩ ⟨hb', _⟩
        exact hb'.setContent (c := .set (entries.map (·.1))) ⟨trivial, by simp [Content.parts]⟩
      · split
        · next tag items hn =>
          refine (Ends.foldlM
            (S := fun acc => After g root b acc.1 ∧ ∀ e ∈ acc.2, g.Holds id e)
            ⟨after_refl hb, by simp⟩ ?_).bind ?_
          · intro acc hacc item hi
            exact addPair_ends h hr.call hacc (hitems tag items hn item hi)
          · rintro ⟨b', entries⟩ ⟨hb', hholds⟩
            refine hb'.setContent (c := .pairs entries) ⟨trivial, fun part hp => ?_⟩
            obtain ⟨e, he, rfl | rfl⟩ := mem_pairNodes.mp hp
            · exact (hholds e he).1
            · exact (hholds e he).2
        · trivial

theorem keyValue_ends (h : Builds g root limit frames) (hb : Sound g b)
    (hr : g.Reached root limit frames 3 id) {key : NodeId} (hi : g.Inside id key) :
    Ends (g.Stops root limit) (fun r => After g root b r.1 ∧ (r.2.isHashable = true → IsKey r.2))
      (keyValue frames (fun b id => Builder.mapping true frames b id)
        (fun b id => Builder.build deep frames b id) b key) := by
  have hkey := hr.enter (by omega) hi
  unfold keyValue
  split
  · refine (h.mapping true b key hb (hkey.mono (Nat.le_refl _) (by omega))).bind ?_
    rintro ⟨b', inner⟩ ⟨hb', hinner⟩
    refine (hb'.sound.frozenKey_ends fun e he => ?_).bind ?_
    · obtain ⟨_, k, hdraws⟩ := hinner e he
      exact hkey.enter (by omega) hdraws.holds.2
    · intro k hk
      exact ⟨hb', hk⟩
  · refine (h.build deep b key hb hkey).bind ?_
    intro b' hb'
    exact ⟨hb', fun hhash => (hb'.sound.value_isLeaf 0 key hhash).isKey⟩

theorem addEntry_ends (h : Builds g root limit frames) (hr : g.Reached root limit frames 3 id)
    {acc : Builder × List (Value × NodeId)} {e : NodeId × NodeId}
    (hacc : After g root b acc.1 ∧ ∀ e ∈ acc.2, IsEntryOf g id e) (he : g.Draws id e) :
    Ends (g.Stops root limit) (fun r => After g root b r.1 ∧ ∀ e ∈ r.2, IsEntryOf g id e)
      (addEntry
        (keyValue frames (fun b id => Builder.mapping true frames b id)
          fun b id => Builder.build deep frames b id)
        (fun b id => Builder.build deep frames b id) acc e) := by
  obtain ⟨b', done⟩ := acc
  obtain ⟨key, content⟩ := e
  rw [addEntry]
  refine (keyValue_ends h hacc.1.sound hr he.holds.1).bind ?_
  rintro ⟨b₁, k⟩ ⟨hb₁, hk⟩
  dsimp only
  split
  · trivial
  · next hhash =>
    have hkey := hk (by simpa using hhash)
    refine (h.build deep b₁ content hb₁.sound (hr.enter (by omega) he.holds.2)).bind ?_
    intro b₂ hb₂
    refine ⟨hacc.1.trans (hb₁.trans hb₂), fun e hmem => ⟨?_, ?_⟩⟩
    · exact Value.forall_insertEntry (fun e hmem => (hacc.2 e hmem).1) hkey content e hmem
    · rcases (Value.mem_insertEntry hmem).2 with heq | ⟨f, hf, heq⟩
      · exact ⟨key, heq ▸ he⟩
      · exact heq ▸ (hacc.2 f hf).2

theorem mapping_ends (h : Builds g root limit frames) (hb : Sound g b)
    (hr : g.Reached root limit (frames + 1) 2 id) :
    Ends (g.Stops root limit) (fun r => After g root b r.1 ∧ ∀ e ∈ r.2, IsEntryOf g id e)
      (Builder.mapping deep (frames + 1) b id) := by
  rw [Builder.mapping]
  split
  · refine (flatten_ends_merged hb.graph hr.call).bind ?_
    intro g' hg'
    refine Ends.foldlM ⟨⟨hb.setGraph hg', rfl, fun _ hid => .inl hid⟩, by simp⟩ ?_
    intro acc hacc e he
    exact addEntry_ends h hr.call hacc (hg'.drawn.draws id e he)
  · trivial

/-- Whatever calls are left, building keeps the builder sound and stops for good for a reason only. -/
theorem builds (g : Graph) (root : NodeId) (limit frames : Nat) : Builds g root limit frames := by
  induction frames using Nat.strongRecOn with
  | ind frames ih =>
    cases frames with
    | zero => exact builds_zero
    | succ frames =>
      have h := ih frames (by omega)
      refine ⟨fun _ _ _ => build_ends h, fun _ _ _ => fill_ends h, ?_, fun _ _ _ => mapping_ends h⟩
      intro deep b id items hb hr hi
      cases frames with
      | zero => exact Or.inl ⟨rfl, hr.call.tooDeep (by omega)⟩
      | succ frames => exact sequence_ends (ih frames (by omega)) hb hr hi

theorem fillWaiting_ends (rounds : Nat) (hb : Sound g b) (hw : ∀ id ∈ b.waiting, g.Reaches root id) :
    Ends (g.Stops root frameLimit) (Sound g) (fillWaiting rounds b) := by
  induction rounds generalizing b with
  | zero => exact hb
  | succ rounds ih =>
    unfold fillWaiting
    split
    · exact hb
    · next id rest hwaiting =>
      obtain ⟨n, hn⟩ := hw id (by simp [hwaiting])
      have hrest : Sound g { b with waiting := rest } := ⟨hb.graph, hb.contents⟩
      refine ((builds g root frameLimit frameLimit).fill false _ id hrest ⟨n, hn, by omega⟩).bind ?_
      intro b' hb'
      refine ih hb'.sound fun w hmem => (hb'.waiting w hmem).elim (fun h => ?_) fun h => h
      exact hw w (by simp [hwaiting, show w ∈ rest from h])

/-- A builder that has built nothing yet. -/
def fresh (g : Graph) : Builder := ⟨g, Array.replicate g.size none, [], []⟩

theorem ofGraph_eq (g : Graph) (root : NodeId) :
    ofGraph g root = (Builder.build false frameLimit (fresh g) root >>= fillWaiting (g.size + 1)) :=
  rfl

@[simp] theorem fresh_content? (g : Graph) (id : NodeId) : (fresh g).content? id = none := by
  simp only [fresh, content?, Array.getElem?_replicate]
  split <;> rfl

theorem fresh_sound (g : Graph) : Sound g (fresh g) where
  graph := merged_refl g
  contents := by simp

/-- Building the contents of a document. -/
theorem ofGraph_ends (g : Graph) (root : NodeId) :
    Ends (g.Stops root frameLimit) (Sound g) (ofGraph g root) := by
  rw [ofGraph_eq]
  refine ((builds g root frameLimit frameLimit).build false _ root (fresh_sound g)
    (reached_root g root frameLimit)).bind ?_
  intro b hb
  exact fillWaiting_ends _ hb.sound fun id hid => (hb.waiting id hid).elim (by simp [fresh]) fun h => h

theorem scalarValue_scalar (hn : g.node id = .scalar tag text) :
    scalarValue g (frames + 1) tag read id = read text := by
  simp only [scalarValue, scalarText, hn, Node.isMapping, Bool.and_false]
  rfl

/-- Building a scalar for the first time is reading it. -/
theorem build_scalar (hn : b.graph.node id = .scalar tag text)
    (h : Scalar.reader? tag = some read) (hc : b.content? id = none) (hu : id ∉ b.underWay) :
    Builder.build deep (frames + 2) b id = (read text).map fun v => b.setContent id (.leaf v) := by
  have htag : (b.graph.node id).tag = tag := by
    rw [hn]
    rfl
  rw [Builder.build]
  simp only [hc, hu, htag, h, scalarValue_scalar hn, List.contains_iff_mem, Option.isSome_none,
    Bool.false_eq_true, if_false]
  cases read text <;> rfl

theorem fillWaiting_done (h : b.waiting = []) (rounds : Nat) : fillWaiting rounds b = .ok b := by
  cases rounds with
  | zero => rfl
  | succ rounds =>
    unfold fillWaiting
    rw [h]

/-- Building a document of one scalar stops for good exactly if its text is unreadable. -/
theorem ofGraph_scalar_eq_abort_iff (hn : g.node root = .scalar tag text)
    (h : Scalar.reader? tag = some read) :
    ofGraph g root = .error (.abort a) ↔ Unreadable tag text a := by
  have hbuild : Builder.build false frameLimit (fresh g) root =
      (read text).map fun v => (fresh g).setContent root (.leaf v) :=
    build_scalar hn h (fresh_content? g root) (by simp [fresh])
  rw [← reader_eq_abort_iff h, ofGraph_eq, hbuild]
  cases hr : read text with
  | error f => simp [Except.map, bind, Except.bind]
  | ok v =>
    have hdone := fillWaiting_done (b := (fresh g).setContent root (.leaf v)) rfl (g.size + 1)
    simp [Except.map, bind, Except.bind, hdone]

end Builder

end CeilingGate.Yaml
