import CeilingGate.Proofs.Yaml.Steady
import Mathlib.Logic.Relation

/-! Where the entries of a mapping come from when merge keys are resolved: from the mapping itself, or from
one that it merges, directly or through others. -/
namespace CeilingGate.Yaml

namespace Graph

variable {g g' : Graph} {a b id named : NodeId} {e : NodeId × NodeId} {es : List (NodeId × NodeId)}

/-- A merge key of one mapping names another, by itself or in a list. -/
def Merges (g : Graph) (a b : NodeId) : Prop :=
  ∃ e ∈ g.entries a, g.isMerge e = true ∧ (b = e.2 ∨ b ∈ (g.node e.2).items)

/-- An entry stands in a mapping, or in one that it merges. -/
def Draws (g : Graph) (a : NodeId) (e : NodeId × NodeId) : Prop :=
  ∃ b, Relation.ReflTransGen g.Merges a b ∧ e ∈ g.entries b

theorem draws_own (h : e ∈ g.entries a) : g.Draws a e := ⟨a, .refl, h⟩

/-- What a mapping is given by one that it merges. -/
theorem Draws.through (h : g.Draws b e) (hab : Relation.ReflTransGen g.Merges a b) : g.Draws a e := by
  obtain ⟨c, hbc, he⟩ := h
  exact ⟨c, hab.trans hbc, he⟩

/-- A graph that came out of another: equals signs may have become texts, and entries are drawn from those
that there were. -/
structure Drawn (g g' : Graph) : Prop where
  tag : ∀ id, (g'.node id).tag = (g.node id).tag ∨ (g'.node id).tag = standard "str"
  items : ∀ id, (g'.node id).items = (g.node id).items
  draws : ∀ id, ∀ e ∈ g'.entries id, g.Draws id e

theorem drawn_refl (g : Graph) : Drawn g g where
  tag := fun _ => Or.inl rfl
  items := fun _ => rfl
  draws := fun _ _ he => draws_own he

theorem items_asText (g : Graph) (id a : NodeId) :
    ((g.asText id).node a).items = (g.node a).items := by
  unfold asText
  by_cases ha : id = a
  · subst ha
    cases hn : g.node id <;> simp only [node_setIfInBounds] <;> split <;> simp [hn, Node.items]
  · cases g.node id <;> simp [node_setIfInBounds, ha]

/-- A tag that is not that of texts was there from the start. -/
theorem Drawn.tag_eq (h : Drawn g g') {name : String} (ht : (g'.node id).tag = standard name)
    (hname : name ≠ "str") : (g.node id).tag = standard name := by
  rcases h.tag id with hsame | hstr
  · rw [← hsame, ht]
  · rw [ht, standard_inj] at hstr
    exact (hname hstr).elim

/-- What a merge key names is merged. -/
theorem Drawn.merges (h : Drawn g g') (he : e ∈ g'.entries id) (hm : g'.isMerge e = true)
    (hn : named = e.2 ∨ named ∈ (g'.node e.2).items) : Relation.ReflTransGen g.Merges id named := by
  obtain ⟨c, hc, hmem⟩ := h.draws id e he
  have htag : (g.node e.1).tag = standard "merge" := h.tag_eq (eq_of_beq hm) (by decide)
  rw [h.items] at hn
  exact hc.tail ⟨e, hmem, beq_iff_eq.mpr htag, hn⟩

theorem Drawn.setEntries (h : Drawn g g') (he : ∀ e ∈ es, g.Draws id e) :
    Drawn g (g'.setEntries id es) where
  tag := fun a => (node_setEntries g' id a es).2 ▸ h.tag a
  items := fun a => (items_setEntries g' id a es).trans (h.items a)
  draws := by
    intro a
    rw [entries_setEntries]
    split
    · next ha =>
      rw [ha.1]
      exact he
    · exact h.draws a

theorem Drawn.asText (h : Drawn g g') (id : NodeId) : Drawn g (g'.asText id) where
  tag := by
    intro a
    obtain hsame | ⟨-, hstr⟩ := (node_asText g' id a).2.2
    · exact hsame ▸ h.tag a
    · exact Or.inr hstr
  items := fun a => (items_asText g' id a).trans (h.items a)
  draws := fun a => (node_asText g' id a).2.1 ▸ h.draws a

theorem keeping_drawn (g : Graph) :
    Keeping (Drawn g) (fun a b => Relation.ReflTransGen g.Merges a b) g.Draws where
  text := fun _ id h _ => h.asText id
  names := fun _ _ _ _ h he hm hn => h.merges he hm hn
  drop := fun _ id _ _ h _ _ => h.setEntries fun e he => h.draws id e (List.mem_of_mem_eraseIdx he)
  take := fun _ _ b e h hab he => (h.draws b e he).through hab
  prepend := by
    intro g' id es h hes
    refine h.setEntries fun e he => ?_
    rcases List.mem_append.mp he with he | he
    · exact hes e he
    · exact h.draws id e he

/-- Resolving merge keys gives a mapping only entries of those that it merges. -/
theorem flatten_drawn (h : Drawn g g') (frames : Nat) (id : NodeId) :
    Gives (Drawn g) (g'.flatten frames id) := (keeping_drawn g).flatten h frames id

theorem items_subset_parts (n : Node) : n.items ⊆ n.parts := by
  cases n <;> simp [Node.items, Node.parts]

/-- What merging makes of a graph. -/
structure Merged (g g' : Graph) : Prop where
  steady : Steady g g'
  drawn : Drawn g g'

/-- What a mapping is given stands inside it. -/
theorem Draws.holds (h : g.Draws a e) : g.Holds a e := by
  obtain ⟨b, hab, he⟩ := h
  have hown : ∀ {c}, e ∈ g.entries c → g.Holds c e := fun he => (derived_refl g).entry he
  induction hab using Relation.ReflTransGen.head_induction_on with
  | refl => exact hown he
  | head hac _ ih =>
    obtain ⟨m, hm, -, hc⟩ := hac
    have hcontent := ((derived_refl g).entry hm).2
    rcases hc with rfl | hc
    · exact ih.inside hcontent
    · exact ih.inside (hcontent.trans ((derived_refl g).parts _ _ (items_subset_parts _ hc)))

theorem Merged.derived (h : Merged g g') : Derived g g' where
  form := h.steady.form
  tag := h.drawn.tag
  parts := by
    intro id b hb
    have hitems := h.drawn.items id
    cases hn : g'.node id with
    | scalar tag text => simp [hn, Node.parts] at hb
    | brokenScalar tag codes => simp [hn, Node.parts] at hb
    | sequence tag items =>
      rw [hn] at hb hitems
      exact (derived_refl g).parts id b (items_subset_parts _ (hitems ▸ hb))
    | mapping tag es =>
      simp only [hn, Node.parts, List.mem_flatMap] at hb
      obtain ⟨e, he, hb⟩ := hb
      have hholds := (h.drawn.draws id e (by simpa [Graph.entries, hn] using he)).holds
      simp only [List.mem_cons, List.not_mem_nil, or_false] at hb
      rcases hb with rfl | rfl
      · exact hholds.1
      · exact hholds.2

theorem merged_refl (g : Graph) : Merged g g := ⟨steady_refl g, drawn_refl g⟩

theorem flatten_merged (h : Merged g g') (frames : Nat) (id : NodeId) :
    Gives (Merged g) (g'.flatten frames id) := by
  have hsteady := gives_iff.mp (flatten_steady h.steady frames id)
  have hdrawn := gives_iff.mp (flatten_drawn h.drawn frames id)
  exact gives_iff.mpr fun g'' hg => ⟨hsteady g'' hg, hdrawn g'' hg⟩

end Graph

end CeilingGate.Yaml
