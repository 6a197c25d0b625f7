import CeilingGate.Proofs.Yaml.Scalar
import CeilingGate.Proofs.Yaml.Walk
import Mathlib.Data.List.Basic

/-! What merging leaves alone. A mapping gets entries of others in front of its own, and equals signs that
are keys become texts; all else stays. Whatever the steps of merging keep is kept. -/
namespace CeilingGate.Yaml

/-- The items of a sequence. -/
def Node.items : Node → List NodeId
  | .sequence _ items => items
  | _ => []

namespace Graph

variable {g g' : Graph} {a b id content : NodeId} {keys frames position n : Nat}
  {e : NodeId × NodeId} {es merged : List (NodeId × NodeId)}

/-! ## The two changes that merging makes -/

theorem lt_size_of_tag (h : (g.node id).tag ≠ standard "null") : id < g.size := by
  by_contra hid
  unfold node at h
  rw [Array.getElem?_eq_none (Nat.le_of_not_lt hid)] at h
  exact h rfl

theorem lt_size_of_isMapping (h : (g.node id).isMapping = true) : id < g.size := by
  by_contra hid
  unfold node at h
  rw [Array.getElem?_eq_none (Nat.le_of_not_lt hid)] at h
  cases h

@[simp] theorem size_setEntries : (g.setEntries id es).size = g.size := by
  unfold setEntries
  split <;> simp

@[simp] theorem size_asText : (g.asText id).size = g.size := by
  unfold asText
  split <;> simp

/-- New entries change neither the forms nor the tags of nodes. -/
theorem node_setEntries (g : Graph) (id a : NodeId) (es : List (NodeId × NodeId)) :
    ((g.setEntries id es).node a).form = (g.node a).form ∧
      ((g.setEntries id es).node a).tag = (g.node a).tag := by
  unfold setEntries
  split
  · next hn =>
    rw [node_setIfInBounds]
    split
    · next ha =>
      rw [← ha.1, hn]
      exact ⟨rfl, rfl⟩
    · exact ⟨rfl, rfl⟩
  · exact ⟨rfl, rfl⟩

theorem entries_setEntries (g : Graph) (id a : NodeId) (es : List (NodeId × NodeId)) :
    (g.setEntries id es).entries a =
      if a = id ∧ (g.node id).isMapping = true then es else g.entries a := by
  unfold setEntries
  split
  · next hn =>
    have hid : id < g.size := lt_size_of_isMapping (by rw [hn]; rfl)
    have hmapping : (g.node id).isMapping = true := by rw [hn]; rfl
    unfold entries
    rw [node_setIfInBounds]
    by_cases ha : id = a
    · subst ha
      simp [hid, hmapping]
    · simp [ha, Ne.symm ha]
  · next hn =>
    have hmapping : (g.node id).isMapping = false := by
      cases h : g.node id with
      | mapping tag es' => exact (hn tag es' h).elim
      | _ => rfl
    simp [hmapping]

/-- A key that becomes a text keeps its form and its entries. -/
theorem node_asText (g : Graph) (id a : NodeId) :
    ((g.asText id).node a).form = (g.node a).form ∧
      (g.asText id).entries a = g.entries a ∧
      (((g.asText id).node a).tag = (g.node a).tag ∨
        a = id ∧ ((g.asText id).node a).tag = standard "str") := by
  unfold asText entries
  by_cases ha : id = a
  · subst ha
    cases hn : g.node id <;> simp only [node_setIfInBounds] <;> split <;>
      simp [hn, Node.form, Node.tag]
  · cases g.node id <;> simp [node_setIfInBounds, ha]

theorem items_setEntries (g : Graph) (id a : NodeId) (es : List (NodeId × NodeId)) :
    ((g.setEntries id es).node a).items = (g.node a).items := by
  unfold setEntries
  split
  · next hn =>
    rw [node_setIfInBounds]
    split
    · next ha =>
      rw [← ha.1, hn]
      rfl
    · rfl
  · rfl

/-! ## A rule for merging -/

theorem entries_passEntries (g : Graph) (es : List (NodeId × NodeId)) (a : NodeId) :
    (g.passEntries es).2.entries a = g.entries a := by
  induction es generalizing g with
  | nil => rfl
  | cons first rest ih =>
    unfold passEntries
    split
    · rfl
    · dsimp only
      split
      · exact (ih _).trans (node_asText g first.1 a).2.1
      · exact ih g

/-- Passing stops at merge keys only. -/
theorem isMerge_of_passEntries (h : es[(g.passEntries es).1]? = some e) :
    (g.passEntries es).2.isMerge e = true := by
  induction es generalizing g with
  | nil => simp at h
  | cons first rest ih =>
    unfold passEntries at h ⊢
    split at h
    · next hmerge =>
      rw [if_pos hmerge]
      cases h
      exact hmerge
    · next hmerge =>
      rw [if_neg hmerge]
      exact ih h

/-- What the steps of merging keep. `I` is true of the graph, `N a b` where a merge key of `a` names `b`, and
`E a e` where `e` may come to stand before the entries of `a`. -/
structure Keeping (I : Graph → Prop) (N : NodeId → NodeId → Prop)
    (E : NodeId → NodeId × NodeId → Prop) : Prop where
  text : ∀ g id, I g → (g.node id).tag = standard "value" → I (g.asText id)
  names : ∀ g id e b, I g → e ∈ g.entries id → g.isMerge e = true →
    (b = e.2 ∨ b ∈ (g.node e.2).items) → N id b
  drop : ∀ g id i e, I g → (g.entries id)[i]? = some e → g.isMerge e = true →
    I (g.setEntries id ((g.entries id).eraseIdx i))
  take : ∀ g a b e, I g → N a b → e ∈ g.entries b → E a e
  prepend : ∀ g id es, I g → (∀ e ∈ es, E id e) → I (g.setEntries id (es ++ g.entries id))

section Keeping

variable {I : Graph → Prop} {N : NodeId → NodeId → Prop} {E : NodeId → NodeId × NodeId → Prop}
  {resolve : Graph → NodeId → Except Failure Graph}

theorem Keeping.passEntries (h : Keeping I N E) (hg : I g) (es : List (NodeId × NodeId)) :
    I (g.passEntries es).2 := by
  induction es generalizing g with
  | nil => exact hg
  | cons first rest ih =>
    unfold Graph.passEntries
    split
    · exact hg
    · dsimp only
      split
      · next ht => exact ih (h.text g first.1 hg (eq_of_beq ht))
      · exact ih hg

theorem Keeping.mergeItem (h : Keeping I N E) (hf : ∀ g b, I g → Gives I (resolve g b))
    {acc : Graph × List (List (NodeId × NodeId))} {item : NodeId} (hg : I acc.1)
    (hp : ∀ part ∈ acc.2, ∀ e ∈ part, E id e) (hi : N id item) :
    Gives (fun r => I r.1 ∧ ∀ part ∈ r.2, ∀ e ∈ part, E id e) (mergeItem resolve acc item) := by
  obtain ⟨g₁, parts⟩ := acc
  rw [Graph.mergeItem]
  split
  · refine (hf g₁ item hg).bind ?_
    intro g₂ h₂
    refine ⟨h₂, ?_⟩
    intro part hpart e he
    rcases List.mem_append.mp hpart with hpart | hpart
    · exact hp part hpart e he
    · rw [List.mem_singleton.mp hpart] at he
      exact h.take g₂ id item e h₂ hi he
  · trivial

theorem Keeping.mergedEntries (h : Keeping I N E) (hf : ∀ g b, I g → Gives I (resolve g b))
    (hg : I g) (hc : ∀ b, b = content ∨ b ∈ (g.node content).items → N id b) :
    Gives (fun r => I r.1 ∧ ∀ e ∈ r.2, E id e) (g.mergedEntries resolve content) := by
  unfold Graph.mergedEntries
  split
  · refine (hf g content hg).bind ?_
    intro g₁ h₁
    exact ⟨h₁, fun e he => h.take g₁ id content e h₁ (hc content (Or.inl rfl)) he⟩
  · next items hn =>
    have hitems : ∀ item ∈ items, N id item := by
      intro item hi
      refine hc item (Or.inr ?_)
      rw [hn]
      exact hi
    refine (Ends.foldlM ⟨hg, by simp⟩ fun acc hacc item hi =>
      h.mergeItem hf hacc.1 hacc.2 (hitems item hi)).bind ?_
    rintro ⟨g₁, parts⟩ ⟨h₁, hp⟩
    refine ⟨h₁, ?_⟩
    intro e he
    obtain ⟨part, hpart, he⟩ := List.mem_flatten.mp he
    exact hp part (List.mem_reverse.mp hpart) e he
  · trivial
  · trivial

theorem Keeping.finish (h : Keeping I N E) (hg : I g) (hm : ∀ e ∈ merged, E id e) :
    I (if merged.isEmpty then g else g.setEntries id (merged ++ g.entries id)) := by
  split
  · exact hg
  · exact h.prepend g id merged hg hm

/-- Resolving merge keys keeps what its steps keep. -/
theorem Keeping.flattenFrom (h : Keeping I N E) (keys : Nat) (hg : I g) (hm : ∀ e ∈ merged, E id e) :
    Gives I (g.flattenFrom keys frames id position merged) := by
  induction keys generalizing g id frames position merged with
  | zero =>
    rw [Graph.flattenFrom]
    split
    · trivial
    · exact h.finish (h.passEntries hg _) hm
  | succ keys ih =>
    have hpassed := h.passEntries hg ((g.entries id).drop position)
    have hentries := entries_passEntries g ((g.entries id).drop position)
    have hnext (e : NodeId × NodeId) :
        ((g.entries id).drop position)[(g.passEntries ((g.entries id).drop position)).1]? = some e →
          (g.passEntries ((g.entries id).drop position)).2.isMerge e = true :=
      isMerge_of_passEntries
    rw [Graph.flattenFrom]
    generalize g.passEntries ((g.entries id).drop position) = passed at hpassed hentries hnext ⊢
    obtain ⟨n, g₁⟩ := passed
    dsimp only at hpassed hentries hnext ⊢
    split
    · trivial
    · split
      · next key content hkeys hget =>
        cases hkeys
        have hmerge : g₁.isMerge (key, content) = true := by
          refine hnext _ ?_
          rw [List.getElem?_drop, ← hentries, hget]
        have hnames : ∀ b, b = content ∨
            b ∈ ((g₁.setEntries id ((g₁.entries id).eraseIdx (position + n))).node content).items →
            N id b := by
          intro b hb
          rw [items_setEntries] at hb
          exact h.names g₁ id _ b hpassed (List.mem_of_getElem? hget) hmerge hb
        have hrest := h.drop g₁ id (position + n) _ hpassed hget hmerge
        refine (h.mergedEntries (fun g b hg => ih hg (by simp)) hrest hnames).bind ?_
        rintro ⟨g₂, found⟩ ⟨h₂, hfound⟩
        refine ih h₂ fun e he => ?_
        rcases List.mem_append.mp he with he | he
        · exact hm e he
        · exact hfound e he
      · exact h.finish hpassed hm

theorem Keeping.flatten (h : Keeping I N E) (hg : I g) (frames : Nat) (id : NodeId) :
    Gives I (g.flatten frames id) := h.flattenFrom _ hg (by simp)

end Keeping

/-! ## Merging -/

/-- The entries of a mapping that are no merge keys. -/
def own (g : Graph) (id : NodeId) : List (NodeId × NodeId) :=
  (g.entries id).filter fun e => !g.isMerge e

/-- A mapping without merge keys. -/
def IsPlain (g : Graph) (id : NodeId) : Prop := ∀ e ∈ g.entries id, g.isMerge e = false

/-- A graph that came out of another by merging. -/
structure Steady (g g' : Graph) : Prop where
  size : g'.size = g.size
  form : ∀ id, (g'.node id).form = (g.node id).form
  tag : ∀ id, (g'.node id).tag = (g.node id).tag ∨
    (g.node id).tag = standard "value" ∧ (g'.node id).tag = standard "str"
  own : ∀ id, g.own id <:+ (g'.entries id).filter fun e => !g.isMerge e
  plain : ∀ id, g.IsPlain id → g'.entries id = g.entries id

theorem steady_refl (g : Graph) : Steady g g where
  size := rfl
  form := fun _ => rfl
  tag := fun _ => Or.inl rfl
  own := fun _ => List.suffix_rfl
  plain := fun _ _ => rfl

/-- Which keys are merge keys does not change. -/
theorem Steady.isMerge (h : Steady g g') (e : NodeId × NodeId) : g'.isMerge e = g.isMerge e := by
  unfold Graph.isMerge
  rcases h.tag e.1 with ht | ⟨ht, ht'⟩
  · rw [ht]
  · rw [ht, ht']
    decide

theorem filter_eraseIdx {α : Type} {p : α → Bool} {xs : List α} {i : Nat} {x : α}
    (h : xs[i]? = some x) (hp : p x = false) : (xs.eraseIdx i).filter p = xs.filter p := by
  induction xs generalizing i with
  | nil => simp
  | cons y ys ih =>
    cases i with
    | zero =>
      cases h
      simp [hp]
    | succ i => simp [List.filter_cons, ih h]

/-- Replacing the entries of a mapping, its own among them. -/
theorem Steady.setEntries (h : Steady g g') (hown : g.own id <:+ es.filter fun e => !g.isMerge e)
    (hplain : g.IsPlain id → es = g.entries id) : Steady g (g'.setEntries id es) where
  size := by rw [size_setEntries, h.size]
  form := fun a => (node_setEntries g' id a es).1.trans (h.form a)
  tag := fun a => (node_setEntries g' id a es).2 ▸ h.tag a
  own := by
    intro a
    rw [entries_setEntries]
    split
    · next ha =>
      rw [ha.1]
      exact hown
    · exact h.own a
  plain := by
    intro a ha
    rw [entries_setEntries]
    split
    · next hid =>
      rw [hid.1] at ha ⊢
      exact hplain ha
    · exact h.plain a ha

theorem Steady.asText (h : Steady g g') (ht : (g'.node id).tag = standard "value") :
    Steady g (g'.asText id) where
  size := by rw [size_asText, h.size]
  form := fun a => (node_asText g' id a).1.trans (h.form a)
  tag := by
    intro a
    obtain hsame | ⟨rfl, hstr⟩ := (node_asText g' id a).2.2
    · rw [hsame]
      exact h.tag a
    · refine Or.inr ⟨?_, hstr⟩
      obtain hsame | ⟨hvalue, _⟩ := h.tag a
      · rw [← hsame, ht]
      · exact hvalue
  own := fun a => (node_asText g' id a).2.1 ▸ h.own a
  plain := fun a ha => (node_asText g' id a).2.1.trans (h.plain a ha)

theorem Steady.mem_entries (h : Steady g g') (he : e ∈ g.own id) : e ∈ g'.entries id :=
  (List.mem_filter.mp ((h.own id).subset he)).1

theorem Steady.not_isPlain (h : Steady g g') (he : e ∈ g'.entries id) (hm : g'.isMerge e = true) :
    ¬ g.IsPlain id := by
  intro hplain
  rw [h.plain id hplain] at he
  rw [h.isMerge, hplain e he] at hm
  cases hm

/-- A merge key is no entry of its mapping's own, and a plain mapping has none. -/
theorem keeping_steady (g : Graph) :
    Keeping (Steady g) (fun a _ => ¬ g.IsPlain a) (fun a _ => ¬ g.IsPlain a) where
  text := fun _ _ h ht => h.asText ht
  names := fun _ _ _ _ h he hm _ => h.not_isPlain he hm
  drop := by
    intro g' id i e h hget hm
    have hplain := h.not_isPlain (List.mem_of_getElem? hget) hm
    refine h.setEntries ?_ fun hp => (hplain hp).elim
    rw [filter_eraseIdx hget (by simpa [h.isMerge] using hm)]
    exact h.own id
  take := fun _ _ _ _ _ hn _ => hn
  prepend := by
    intro g' id es h hes
    refine h.setEntries ?_ fun hplain => ?_
    · rw [List.filter_append]
      exact (h.own id).trans (List.suffix_append _ _)
    · have hnone : es = [] := List.eq_nil_iff_forall_not_mem.mpr fun e he => hes e he hplain
      rw [hnone, List.nil_append, h.plain id hplain]

/-- Passing the entries before the first merge key, and where it stands. -/
theorem Steady.passEntries (h : Steady g g') (es : List (NodeId × NodeId)) :
    Steady g (g'.passEntries es).2 ∧
      (∀ a, (g'.passEntries es).2.entries a = g'.entries a) ∧
      ∀ e, es[(g'.passEntries es).1]? = some e → g.isMerge e = true := by
  have hpassed := (keeping_steady g).passEntries h es
  refine ⟨hpassed, entries_passEntries g' es, fun e he => ?_⟩
  rw [← hpassed.isMerge]
  exact isMerge_of_passEntries he

theorem flatten_steady (h : Steady g g') (frames : Nat) (id : NodeId) :
    Gives (Steady g) (g'.flatten frames id) :=
  (keeping_steady g).flatten h frames id

/-- Merging has nothing to do for a mapping without merge keys. -/
theorem flatten_of_isPlain (h : Steady g g') (hp : g.IsPlain id) (frames : Nat) :
    ∃ g'', g'.flatten (frames + 1) id = .ok g'' := by
  unfold Graph.flatten
  obtain ⟨-, hentries, hnext⟩ := h.passEntries ((g'.entries id).drop 0)
  generalize hpass : g'.passEntries ((g'.entries id).drop 0) = passed at hentries hnext
  obtain ⟨n, g₁⟩ := passed
  have hend : (g₁.entries id)[n]? = none := by
    rw [hentries]
    by_contra hne
    obtain ⟨e, he⟩ := Option.ne_none_iff_exists'.mp hne
    have hmem : e ∈ g.entries id := h.plain id hp ▸ List.mem_of_getElem? he
    have hmerge := hnext e he
    rw [hp e hmem] at hmerge
    cases hmerge
  refine ⟨g₁, ?_⟩
  unfold Graph.flattenFrom
  rw [hpass]
  cases Graph.mergeCount g' <;> simp [hend]

end Graph

end CeilingGate.Yaml
