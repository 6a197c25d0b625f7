import CeilingGate.Proofs.Yaml.Ends
import CeilingGate.Yaml.Node.Merge

/-! Ways through the graph of a document. Merging gives mappings the entries of others, but nothing that
no way led to before. -/
namespace CeilingGate.Yaml

/-- The nodes that a node holds. -/
def Node.parts : Node → List NodeId
  | .sequence _ items => items
  | .mapping _ es => es.flatMap fun e => [e.1, e.2]
  | .scalar _ _ | .brokenScalar _ _ => []

/-- A node without its tag and its parts. -/
def Node.form : Node → Node
  | .scalar _ text => .scalar "" text
  | .brokenScalar _ codes => .brokenScalar "" codes
  | .sequence _ _ => .sequence "" []
  | .mapping _ _ => .mapping "" []

namespace Graph

variable {g g' : Graph} {a b c id : NodeId} {n m : Nat} {e : NodeId × NodeId}
  {es : List (NodeId × NodeId)}

/-- A way of `n` steps, each from a node to a part of it. -/
inductive Walk (g : Graph) (a : NodeId) : Nat → NodeId → Prop
  | here : Walk g a 0 a
  | step {n : Nat} {b c : NodeId} : Walk g a n b → c ∈ (g.node b).parts → Walk g a (n + 1) c

theorem Walk.append (h : Walk g a n b) (h' : Walk g b m c) : Walk g a (n + m) c := by
  induction h' with
  | here => exact h
  | step _ hc ih => exact ih.step hc

/-- All that a node leads to, itself included. -/
def Reaches (g : Graph) (a b : NodeId) : Prop := ∃ n, g.Walk a n b

/-- One node is inside another. -/
def Inside (g : Graph) (a b : NodeId) : Prop := ∃ n, Walk g a (n + 1) b

theorem Inside.trans (h : g.Inside a b) (h' : g.Inside b c) : g.Inside a c := by
  obtain ⟨n, hn⟩ := h
  obtain ⟨m, hm⟩ := h'
  exact ⟨n + 1 + m, hn.append hm⟩

/-- The key and the content of an entry are inside a node. -/
def Holds (g : Graph) (a : NodeId) (e : NodeId × NodeId) : Prop := g.Inside a e.1 ∧ g.Inside a e.2

theorem Holds.inside (h : g.Holds b e) (hb : g.Inside a b) : g.Holds a e :=
  ⟨hb.trans h.1, hb.trans h.2⟩

/-- A graph that came out of another: tags may have become those of texts, and what a node holds was
inside it before. -/
structure Derived (g g' : Graph) : Prop where
  form : ∀ id, (g'.node id).form = (g.node id).form
  tag : ∀ id, (g'.node id).tag = (g.node id).tag ∨ (g'.node id).tag = standard "str"
  parts : ∀ id, ∀ b ∈ (g'.node id).parts, g.Inside id b

theorem derived_refl (g : Graph) : Derived g g where
  form := fun _ => rfl
  tag := fun _ => Or.inl rfl
  parts := fun _ _ hb => ⟨0, Walk.here.step hb⟩

theorem node_setIfInBounds (g : Graph) (id a : NodeId) (n : Node) :
    node (g.setIfInBounds id n) a = if id = a ∧ id < g.size then n else g.node a := by
  unfold node
  rw [Array.getElem?_setIfInBounds]
  by_cases h : id = a
  · by_cases hs : id < g.size
    · simp [h, h ▸ hs]
    · have hs' : ¬ a < g.size := h ▸ hs
      simp [h, hs']
  · simp [h]

/-- Replacing a node by one of the same form that holds nothing new. -/
theorem Derived.replace (h : Derived g g') {node : Node} (hf : node.form = (g'.node id).form)
    (ht : node.tag = (g'.node id).tag ∨ node.tag = standard "str")
    (hp : ∀ b ∈ node.parts, g.Inside id b) : Derived g (g'.setIfInBounds id node) where
  form := by
    intro a
    rw [node_setIfInBounds]
    split
    · next ha => rw [hf, ha.1, h.form]
    · exact h.form a
  tag := by
    intro a
    rw [node_setIfInBounds]
    split
    · next ha =>
      rcases ht with ht | ht
      · rw [ht, ha.1]
        exact h.tag a
      · exact Or.inr ht
    · exact h.tag a
  parts := by
    intro a b
    rw [node_setIfInBounds]
    split
    · next ha =>
      intro hb
      rw [← ha.1]
      exact hp b hb
    · exact h.parts a b

theorem mem_parts_of_mem_entries (h : e ∈ g.entries id) :
    e.1 ∈ (g.node id).parts ∧ e.2 ∈ (g.node id).parts := by
  unfold entries at h
  split at h
  · next hn =>
    rw [hn]
    simp only [Node.parts, List.mem_flatMap]
    exact ⟨⟨e, h, by simp⟩, ⟨e, h, by simp⟩⟩
  · cases h

theorem Derived.entry (h : Derived g g') (he : e ∈ g'.entries id) : g.Holds id e := by
  have hp := mem_parts_of_mem_entries he
  exact ⟨h.parts id _ hp.1, h.parts id _ hp.2⟩

theorem Derived.setEntries (h : Derived g g') (he : ∀ e ∈ es, g.Holds id e) :
    Derived g (g'.setEntries id es) := by
  unfold Graph.setEntries
  split
  · next hn =>
    refine h.replace (by simp [hn, Node.form]) (Or.inl (by simp [hn, Node.tag])) ?_
    intro b hb
    simp only [Node.parts, List.mem_flatMap] at hb
    obtain ⟨e, hmem, hb⟩ := hb
    simp only [List.mem_cons, List.not_mem_nil, or_false] at hb
    rcases hb with rfl | rfl
    · exact (he e hmem).1
    · exact (he e hmem).2
  · exact h

theorem Derived.asText (h : Derived g g') (id : NodeId) : Derived g (g'.asText id) := by
  have hp := h.parts id
  unfold Graph.asText
  split
  all_goals
    next hn =>
    rw [hn] at hp
    exact h.replace (by simp [hn, Node.form]) (Or.inr rfl) hp

end Graph

end CeilingGate.Yaml
