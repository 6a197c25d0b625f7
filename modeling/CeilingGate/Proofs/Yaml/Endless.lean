import CeilingGate.Proofs.Yaml.Circles
import CeilingGate.Yaml.Document

/-! Mappings that are never read because they are among their own keys, and what the reading of any mapping
comes to. -/
namespace CeilingGate.Yaml

namespace Builder

open CeilingGate.Yaml.Graph

variable {g : Graph} {b : Builder} {id root : NodeId} {frames : ℕ} {deep : Bool}

theorem foldlM_step {α σ : Type} {f : σ → α → Except Failure σ} {S : σ → Prop} {xs : List α} {x : α}
    {s r : σ} (hs : S s) (hf : ∀ s, S s → ∀ x ∈ xs, Gives S (f s x)) (h : xs.foldlM f s = .ok r)
    (hx : x ∈ xs) : ∃ s' r', S s' ∧ f s' x = .ok r' := by
  induction xs generalizing s with
  | nil => cases hx
  | cons first rest ih =>
    rw [List.foldlM_cons] at h
    obtain ⟨s', hs', h⟩ := bind_eq_ok.mp h
    rcases List.mem_cons.mp hx with rfl | hx
    · exact ⟨s, s', hs, hs'⟩
    · exact ih (gives_iff.mp (hf s hs first (by simp)) s' hs')
        (fun s hs x hx => hf s hs x (by simp [hx])) h hx

/-- A mapping that is read has read the mappings among its own keys, with a call less. -/
theorem mapping_of_ownKey {k : NodeId} {r : Builder × List (Value × NodeId)}
    (hb : Sound g b) (h : Builder.mapping deep (frames + 1) b id = .ok r) (hk : g.OwnKey id k) :
    ∃ b' r', Sound g b' ∧ Builder.mapping true frames b' k = .ok r' := by
  rw [Builder.mapping] at h
  split at h
  · obtain ⟨g', hflatten, h⟩ := bind_eq_ok.mp h
    have hg' := gives_iff.mp (flatten_merged hb.graph frames id) g' hflatten
    obtain ⟨hm, c, hown⟩ := hk
    have hstart : After g id b { b with graph := g' } :=
      ⟨hb.setGraph hg', rfl, fun _ hid => .inl hid⟩
    obtain ⟨⟨b', done⟩, r', hb', hadd⟩ :=
      foldlM_step
        (S := fun acc : Builder × List (Value × NodeId) =>
          After g id b acc.1 ∧ ∀ e ∈ acc.2, IsEntryOf g id e)
        ⟨hstart, by simp⟩
        (fun acc hacc e he => (addEntry_ends (builds g id 0 frames) (reaches_refl g id).reached hacc
          (hg'.drawn.draws id e he)).gives)
        h (hg'.steady.mem_entries hown)
    rw [addEntry] at hadd
    obtain ⟨r₁, hkey, _⟩ := bind_eq_ok.mp hadd
    rw [keyValue, if_pos ((hb'.1.sound.graph.steady.isMapping k).trans hm)] at hkey
    obtain ⟨r₂, hr₂, _⟩ := bind_eq_ok.mp hkey
    exact ⟨b', r₂, hb'.1.sound, hr₂⟩
  · cases h

/-- A mapping that is among its own keys is never read. -/
theorem mapping_ne_ok {r : Builder × List (Value × NodeId)} (hb : Sound g b)
    (h : Relation.TransGen g.OwnKey id id) : Builder.mapping deep frames b id ≠ .ok r := by
  induction frames generalizing b id deep r with
  | zero => simp [Builder.mapping]
  | succ frames ih =>
    intro hr
    obtain ⟨k, hk, hback⟩ := Relation.TransGen.head'_iff.mp h
    obtain ⟨b', r', hb', hr'⟩ := mapping_of_ownKey hb hr hk
    exact ih hb' (Relation.TransGen.tail' hback hk) hr'

/-- Mappings without merge keys, each with another of them as its first key, are read for ever. -/
theorem mapping_cutShort {S : NodeId → Prop} (hplain : ∀ a, S a → g.IsPlain a)
    (hfirst : ∀ a, S a → ∃ e es, g.entries a = e :: es ∧ S e.1) (hb : Sound g b) (hid : S id) :
    Builder.mapping deep frames b id = cutShort := by
  induction frames generalizing b id deep with
  | zero => rfl
  | succ frames ih =>
    have hmapping : ∀ a, S a → (g.node a).isMapping = true := by
      intro a ha
      obtain ⟨e, es, he, -⟩ := hfirst a ha
      exact isMapping_of_mem_entries (e := e) (by simp [he])
    rw [Builder.mapping, if_pos ((hb.graph.steady.isMapping id).trans (hmapping id hid))]
    cases frames with
    | zero => rw [flatten, flattenFrom]; rfl
    | succ frames =>
      obtain ⟨g', hg'⟩ := flatten_of_isPlain hb.graph.steady (hplain id hid) frames
      have hmerged := gives_iff.mp (flatten_merged hb.graph (frames + 1) id) g' hg'
      obtain ⟨e, es, he, hkey⟩ := hfirst id hid
      rw [hg']
      change (g'.entries id).foldlM _ _ = _
      rw [hmerged.steady.plain id (hplain id hid), he, List.foldlM_cons, addEntry, keyValue,
        if_pos ((hmerged.steady.isMapping e.1).trans (hmapping e.1 hkey)),
        ih (hb.setGraph hmerged) hkey]
      rfl

/-- Two lists that each hold themselves only are compared for ever. -/
theorem same_cutShort {x y : NodeId} (hx : b.content? x = some (.list [x]))
    (hy : b.content? y = some (.list [y])) (hne : x ≠ y) : b.same frames x y = cutShort := by
  induction frames with
  | zero => rfl
  | succ frames ih =>
    rw [same, if_neg hne, hx, hy]
    simp only [List.length_singleton, if_true, sameNodes, ih]
    rfl

/-- A key with two such lists under one text is never read. -/
theorem frozenKey_cutShort {x y : NodeId} {k k' : Value} {t : RawText}
    (hx : b.content? x = some (.list [x])) (hy : b.content? y = some (.list [y])) (hne : x ≠ y)
    (hk : k.text? = some t) (hk' : k'.text? = some t) :
    b.frozenKey frames [(k, x), (k', y)] = cutShort := by
  have hback : b.same frames y x = cutShort := same_cutShort hy hx hne.symm
  simp [frozenKey, textEntry, hk, hk', sortEntries, insertEntry, entryBelow, hback, bind,
    Except.bind, pure, Except.pure]

example : Yaml.read "[&x [*x], &y [*y], \x7b? \x7b1: *x, '1': *y\x7d : 2\x7d]".toList = cutShort := by
  decide +kernel

/-! ## What the reading of a mapping comes to -/

/-- Where nothing below a mapping is circular and no keys there compare circles, its reading has one
outcome, and is cut short only for want of calls. A mapping that is among its own keys is never read,
however many calls there may be. -/
theorem mapping_ends_or_circles (hb : Sound g b) (id : NodeId) (deep : Bool) :
    (g.EndsBelow id → ∃ needed outcome,
      (∀ frames, Builder.mapping deep frames b id =
        if frames < needed then cutShort else outcome) ∧
      Ends (g.HasUnreadable id) (fun r => Sound g r.1 ∧ ∀ e ∈ r.2, IsEntryOf g id e) outcome) ∧
    (Relation.TransGen g.OwnKey id id →
      ∀ frames r, Builder.mapping deep frames b id ≠ .ok r) := by
  refine ⟨fun h => ?_, fun h frames r => mapping_ne_ok hb h⟩
  have hsettles : Settles fun frames => Builder.mapping deep frames b id :=
    mapping_settles h (settlesBuild h _) hb le_rfl (reaches_refl g id)
  obtain ⟨needed, outcome, hne, hcalls⟩ :=
    hsettles.exists_needed fun hle => mapping_upto_of_le hle deep b id
  refine ⟨needed, outcome, hcalls, ?_⟩
  have hends := (builds g id 0 needed).mapping deep b id hb (reaches_refl g id).reached
  rw [hcalls, if_neg (lt_irrefl needed)] at hends
  rw [ends_iff] at hends ⊢
  refine ⟨fun r hr => ⟨(hends.1 r hr).1.sound, (hends.1 r hr).2⟩, fun a ha => ?_⟩
  refine (hends.2 a ha).resolve_left fun hdeep => hne ?_
  rw [ha, hdeep.1]

/-- A document is cut short if the mapping at its top is. -/
theorem ofGraph_cutShort (ht : (g.node root).tag = standard "map")
    (h : ∀ b deep frames, Sound g b → Builder.mapping deep frames b root = cutShort) :
    ofGraph g root = cutShort := by
  have hset : (standard "map" == standard "seq") = false := by decide
  have hfill : ∀ b frames, Sound g b → b.graph = g → Builder.fill false frames b root = cutShort := by
    intro b frames hb hgraph
    cases frames with
    | zero => rfl
    | succ frames =>
      rw [Builder.fill]
      simp only [hgraph, ht, hset, beq_self_eq_true, if_true, h b false frames hb]
      rfl
  have hempty : Sound g ((fresh g).setContent root (.dict [])) :=
    (fresh_sound g).setContent ⟨by simp [Content.HasKeys], by simp [Content.parts]⟩
  have hbuild : ∀ frames, Builder.build false (frames + 1) (fresh g) root =
      .ok { (fresh g).setContent root (.dict []) with waiting := [root] } := by
    intro frames
    have hcontent : ((fresh g).content? root).isSome = false := by rw [fresh_content?]; rfl
    have hgraph : (fresh g).graph = g := rfl
    rw [Builder.build]
    simp only [hcontent, hgraph, ht]
    rfl
  have hcut := hfill { (fresh g).setContent root (.dict []) with waiting := [] } frameLimit
    ⟨hempty.graph, hempty.contents⟩ rfl
  have hlimit : frameLimit = (frameLimit - 1) + 1 := by decide
  rw [ofGraph_eq, hlimit, hbuild]
  simp only [bind, Except.bind, fillWaiting]
  rw [hcut]

theorem read_cutShort {cs : List Char} (hg : Yaml.graph cs = .ok (some (root, g)))
    (h : ofGraph g root = cutShort) : Yaml.read cs = cutShort := by
  unfold Yaml.read
  rw [hg]
  simp only [bind, Except.bind, h]

/-- A mapping that is the content of one of its own entries. -/
def selfHolding : Graph := #[.mapping (standard "map") [(1, 0)], .scalar (standard "str") ['x']]

/-- A mapping that is its own only key, as the key of another. -/
def selfKeyed : Graph :=
  #[.mapping (standard "map") [(1, 3)], .mapping (standard "map") [(1, 2)],
    .scalar (standard "int") ['1'], .scalar (standard "int") ['2']]

theorem selfHolding_entries {a : NodeId} {e : NodeId × NodeId} (he : e ∈ selfHolding.entries a) :
    a = 0 ∧ e = (1, 0) := by
  have ha : a < 2 := lt_size_of_mem_entries he
  obtain rfl | rfl := Nat.le_one_iff_eq_zero_or_eq_one.mp (Nat.le_of_lt_succ ha)
  · exact ⟨rfl, by simpa [selfHolding, Graph.entries, Graph.node] using he⟩
  · simp [selfHolding, Graph.entries, Graph.node] at he

theorem selfHolding_draws {a : NodeId} {e : NodeId × NodeId} (he : selfHolding.Draws a e) :
    e = (1, 0) := by
  obtain ⟨b, -, he⟩ := he
  exact (selfHolding_entries he).2

theorem selfHolding_not_keyOf {a k : NodeId} : ¬ selfHolding.KeyOf a k := by
  rintro ⟨hm, c, hk⟩
  cases selfHolding_draws hk
  revert hm
  decide

theorem selfHolding_endsBelow (id : NodeId) : selfHolding.EndsBelow id where
  circles := by
    rintro a - (h | h)
    · obtain ⟨k, hk, -⟩ := Relation.TransGen.head'_iff.mp h
      exact selfHolding_not_keyOf hk
    · obtain ⟨c, ⟨k, hk, htag⟩, -⟩ := Relation.TransGen.head'_iff.mp h
      cases selfHolding_draws hk
      revert htag
      decide
  keys := fun _ _ _ hk => (selfHolding_not_keyOf hk).elim

theorem mapping_selfHolding_ends :
    (∃ needed outcome, ∀ frames, Builder.mapping false frames (fresh selfHolding) 0 =
      if frames < needed then cutShort else outcome) ∧
    ∀ frames r, Builder.mapping true frames (fresh selfKeyed) 1 ≠ .ok r := by
  constructor
  · obtain ⟨needed, outcome, hcalls, -⟩ :=
      (mapping_ends_or_circles (fresh_sound selfHolding) 0 false).1 (selfHolding_endsBelow 0)
    exact ⟨needed, outcome, hcalls⟩
  · exact (mapping_ends_or_circles (fresh_sound selfKeyed) 1 true).2
      (.single ⟨by decide, 2, by decide⟩)

theorem mapping_selfKeyed (hb : Sound selfKeyed b) (hid : id = 0 ∨ id = 1) :
    Builder.mapping deep frames b id = cutShort := by
  refine mapping_cutShort (S := fun a => a = 0 ∨ a = 1) ?_ ?_ hb hid
  · rintro _ (rfl | rfl) <;> unfold Graph.IsPlain <;> decide
  · rintro _ (rfl | rfl)
    · exact ⟨(1, 3), [], rfl, Or.inr rfl⟩
    · exact ⟨(1, 2), [], rfl, Or.inr rfl⟩

/-- A text whose key is its own key is never read, neither that key nor the mapping that it is a key of.
-/
theorem mapping_selfKeyed_endless :
    Yaml.graph "? &a {? *a : 1}\n: 2\n".toList = .ok (some (0, selfKeyed)) ∧
      (¬ ∃ deep frames, Builder.mapping deep frames (fresh selfKeyed) 0 ≠ cutShort) ∧
      Yaml.read "? &a {? *a : 1}\n: 2\n".toList = cutShort := by
  have hgraph : Yaml.graph "? &a {? *a : 1}\n: 2\n".toList = .ok (some (0, selfKeyed)) := by
    decide +kernel
  refine ⟨hgraph, ?_, ?_⟩
  · rintro ⟨deep, frames, h⟩
    exact h (mapping_selfKeyed (fresh_sound selfKeyed) (Or.inl rfl))
  · have hroot : ofGraph selfKeyed 0 = cutShort :=
      ofGraph_cutShort rfl fun b deep frames hb =>
        mapping_selfKeyed hb (Or.inl rfl)
    exact read_cutShort hgraph hroot

end Builder

end CeilingGate.Yaml
