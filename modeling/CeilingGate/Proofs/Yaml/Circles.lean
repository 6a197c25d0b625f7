import CeilingGate.Proofs.Yaml.Contents
import CeilingGate.Proofs.Yaml.Frames
import Mathlib.Data.Finset.Card
import Mathlib.Data.Fintype.EquivFin

/-! Which readings of mappings come to an end: all where no mapping is among its own keys, keys of keys and
so on, none stands for its own text, and no key has two different contents that both lead to circles. -/
namespace CeilingGate.Yaml

/-- On finitely many starting points, what leads back to itself nowhere comes to an end everywhere. -/
theorem acc_of_acyclic {r : ℕ → ℕ → Prop} {R : ℕ → Prop} {n a : ℕ} (hn : ∀ a b, r a b → a < n)
    (hR : ∀ a b, R a → r a b → R b) (h : ∀ a, R a → ¬ Relation.TransGen r a a) (ha : R a) :
    Acc (fun b a => r a b) a := by
  have hwf : WellFounded fun b a : Fin n => R a ∧ Relation.TransGen r a b := by
    have : IsTrans (Fin n) fun b a => R a ∧ Relation.TransGen r a b :=
      ⟨fun _ _ _ hcb hba => ⟨hba.1, hba.2.trans hcb.2⟩⟩
    have : Std.Irrefl fun b a : Fin n => R a ∧ Relation.TransGen r a b := ⟨fun a ha => h a ha.1 ha.2⟩
    exact Finite.wellFounded_of_trans_of_irrefl _
  have hfin : ∀ a : Fin n, R a → Acc (fun b a => r a b) (a : ℕ) := by
    intro a
    induction a using hwf.induction with
    | _ a ih =>
      intro ha
      refine ⟨_, fun b hb => ?_⟩
      by_cases hlt : b < n
      · exact ih ⟨b, hlt⟩ ⟨ha, .single hb⟩ (hR _ _ ha hb)
      · exact ⟨_, fun c hc => (hlt (hn _ _ hc)).elim⟩
  by_cases hlt : a < n
  · exact hfin ⟨a, hlt⟩ ha
  · exact ⟨_, fun b hb => (hlt (hn _ _ hb)).elim⟩

namespace Graph

variable {g g' : Graph} {a b id k : NodeId} {e : NodeId × NodeId} {R : NodeId → Prop}

/-- A mapping is a key of another, or of one that the other merges. -/
def KeyOf (g : Graph) (a k : NodeId) : Prop := (g.node k).isMapping = true ∧ ∃ c, g.Draws a (k, c)

/-- A mapping is a key in another itself. -/
def OwnKey (g : Graph) (a k : NodeId) : Prop := (g.node k).isMapping = true ∧ ∃ c, (k, c) ∈ g.own a

/-- A node is the text of a mapping: what its equals sign stands for, or that of one that it merges. -/
def TextOf (g : Graph) (a c : NodeId) : Prop :=
  ∃ k, g.Draws a (k, c) ∧ (g.node k).tag = standard "value"

/-- A mapping is among its own keys, keys of keys and so on, or stands for itself. -/
def IsCircular (g : Graph) (a : NodeId) : Prop :=
  Relation.TransGen g.KeyOf a a ∨ Relation.TransGen g.TextOf a a

/-- A node leads to one that is inside itself. -/
def LeadsRound (g : Graph) (a : NodeId) : Prop := ∃ b, g.Reaches a b ∧ g.Inside b b

/-- A mapping has two entries with different contents that both lead round. Where a key has one text in
both entries its contents are compared, and that goes on for ever if nothing in them differs. -/
def ComparesRound (g : Graph) (a : NodeId) : Prop :=
  ∃ e f, g.Draws a e ∧ g.Draws a f ∧ e.2 ≠ f.2 ∧ g.LeadsRound e.2 ∧ g.LeadsRound f.2

theorem reaches_refl (g : Graph) (a : NodeId) : g.Reaches a a := ⟨0, .here⟩

theorem Reaches.part (h : g.Reaches id a) (hb : b ∈ (g.node a).parts) : g.Reaches id b := by
  obtain ⟨n, hn⟩ := h
  exact ⟨n + 1, hn.step hb⟩

theorem Reaches.merges (h : g.Reaches id a) (hb : g.Merges a b) : g.Reaches id b := by
  obtain ⟨e, he, -, hb⟩ := hb
  have hcontent : g.Reaches id e.2 := h.part (mem_parts_of_mem_entries he).2
  rcases hb with rfl | hb
  · exact hcontent
  · exact hcontent.part (items_subset_parts _ hb)

theorem Reaches.draws (h : g.Reaches id a) (he : g.Draws a e) : g.Reaches id e.1 ∧ g.Reaches id e.2 := by
  obtain ⟨b, hb, he⟩ := he
  have hreach : g.Reaches id b := by
    clear he
    induction hb with
    | refl => exact h
    | tail _ hbc ih => exact Reaches.merges ih hbc
  exact ⟨hreach.part (mem_parts_of_mem_entries he).1, hreach.part (mem_parts_of_mem_entries he).2⟩

theorem isMapping_of_mem_entries (h : e ∈ g.entries a) : (g.node a).isMapping = true := by
  unfold entries at h
  split at h
  · next hn =>
    rw [hn]
    rfl
  · cases h

theorem lt_size_of_mem_entries (h : e ∈ g.entries a) : a < g.size :=
  lt_size_of_isMapping (isMapping_of_mem_entries h)

theorem lt_size_of_draws (h : g.Draws a e) : a < g.size := by
  obtain ⟨b, hb, he⟩ := h
  rcases hb.cases_head with rfl | ⟨c, ⟨e', he', -⟩, -⟩
  · exact lt_size_of_mem_entries he
  · exact lt_size_of_mem_entries he'

/-- Nothing that a node leads to is circular, and no mapping among its keys compares circles. -/
structure EndsBelow (g : Graph) (id : NodeId) : Prop where
  circles : ∀ a, g.Reaches id a → ¬ g.IsCircular a
  keys : ∀ a k, g.Reaches id a → g.KeyOf a k → ¬ g.ComparesRound k

theorem EndsBelow.acc_key (h : g.EndsBelow id) (ha : g.Reaches id a) :
    Acc (fun k a => g.KeyOf a k) a :=
  acc_of_acyclic (fun _ _ hk => lt_size_of_draws hk.2.choose_spec)
    (fun _ _ hr hk => (hr.draws hk.2.choose_spec).1) (fun a hr hc => h.circles a hr (Or.inl hc)) ha

theorem EndsBelow.acc_text (h : g.EndsBelow id) (ha : g.Reaches id a) :
    Acc (fun c a => g.TextOf a c) a :=
  acc_of_acyclic (fun _ _ hc => lt_size_of_draws hc.choose_spec.1)
    (fun _ _ hr hc => (hr.draws hc.choose_spec.1).2) (fun a hr hc => h.circles a hr (Or.inr hc)) ha

theorem Reaches.trans (h : g.Reaches a b) (h' : g.Reaches b k) : g.Reaches a k := by
  obtain ⟨n, hn⟩ := h
  obtain ⟨m, hm⟩ := h'
  exact ⟨n + m, hn.append hm⟩

theorem transGen_parts_iff : Relation.TransGen (fun a b => b ∈ (g.node a).parts) a b ↔ g.Inside a b := by
  constructor
  · intro h
    induction h with
    | single hb => exact ⟨0, .step .here hb⟩
    | tail _ hc ih =>
      obtain ⟨n, hn⟩ := ih
      exact ⟨n + 1, hn.step hc⟩
  · rintro ⟨n, hn⟩
    induction n generalizing b with
    | zero =>
      cases hn with
      | step hw hb =>
        cases hw
        exact .single hb
    | succ n ih =>
      cases hn with
      | step hw hb => exact (ih hw).tail hb

/-- From a node that does not lead round no way leads on for ever. -/
theorem acc_inside (h : ¬ g.LeadsRound a) : Acc (fun c a => g.Inside a c) a := by
  have hparts : Acc (fun c a => c ∈ (g.node a).parts) a := by
    refine acc_of_acyclic (R := g.Reaches a) (n := g.size) (fun b c hc => ?_)
      (fun b c hb hc => hb.part hc) (fun b hb hround => ?_) (reaches_refl g a)
    · by_contra hb
      have hnone : g.node b = .scalar (standard "null") [] := by
        unfold node
        rw [Array.getElem?_eq_none (Nat.le_of_not_lt hb)]
        rfl
      rw [hnone] at hc
      cases hc
    · exact h ⟨b, hb, transGen_parts_iff.mp hround⟩
  refine Subrelation.accessible (r := Relation.TransGen fun c a => c ∈ (g.node a).parts) ?_
    hparts.transGen
  intro c a hc
  exact Relation.transGen_swap.mp (transGen_parts_iff.mpr hc)

end Graph

namespace Builder

open CeilingGate.Yaml.Graph

variable {g : Graph} {b b' : Builder} {id root a : NodeId} {frames bound : ℕ} {deep : Bool}
  {read : List Char → Except Failure Value} {tag : String} {entries : List (Value × NodeId)}

theorem scalarText_settles {g' : Graph} (h : g.EndsBelow root) (hg : Drawn g g')
    (hid : g.Reaches root id) : Settles fun frames => scalarText g' frames id := by
  induction h.acc_text hid with
  | intro id _ ih =>
    refine Settles.call ?_ fun frames => by rw [scalarText]
    cases hn : g'.node id with
    | scalar tag text => exact settles_of_ne (by simp)
    | brokenScalar tag codes => exact settles_of_ne (by simp)
    | sequence tag items => exact settles_of_ne (by simp)
    | mapping tag es =>
      dsimp only
      split
      · next key content hfind =>
        have hmem : (key, content) ∈ g'.entries id := by
          unfold Graph.entries
          rw [hn]
          exact List.mem_of_find?_eq_some hfind
        have hdraws := hg.draws id _ hmem
        have hvalue := List.find?_some hfind
        have htag : (g.node key).tag = standard "value" := hg.tag_eq (eq_of_beq hvalue) (by decide)
        exact ih content ⟨key, hdraws, htag⟩ (hid.draws hdraws).2
      · exact settles_of_ne (by simp)

theorem scalarValue_settles {g' : Graph} (h : g.EndsBelow root) (hg : Drawn g g')
    (hid : g.Reaches root id) (hr : Scalar.reader? tag = some read) :
    Settles fun frames => scalarValue g' frames tag read id := by
  have hread : ∀ text, Ends (· ≠ .tooDeep) (fun _ => True) (read text) := by
    intro text
    refine ends_iff.mpr ⟨fun _ _ => trivial, ?_⟩
    rintro _ ha rfl
    cases (reader_eq_abort_iff hr).mp ha
  refine (scalarText_settles h hg hid).returning fun text => ne_cutShort (Q := fun _ => True) ?_
  dsimp only
  split
  · trivial
  · split
    · split
      · trivial
      · exact hread text
    · exact hread text

/-- How many nodes of the graph are not under way. -/
def free (g : Graph) (b : Builder) : ℕ := (Finset.range g.size \ b.underWay.toFinset).card

theorem free_enter (hid : id < g.size) (hu : id ∉ b.underWay) :
    free g { b with underWay := id :: b.underWay } < free g b := by
  refine Finset.card_lt_card ⟨?_, fun hsub => ?_⟩
  · exact Finset.sdiff_subset_sdiff (Finset.Subset.refl _) fun a ha => by simp_all
  · have hmem : id ∈ Finset.range g.size \ b.underWay.toFinset := by simp [hid, hu]
    simpa using hsub hmem

theorem After.free_eq (h : After g root b b') : free g b' = free g b := by
  unfold free
  rw [h.underWay]

/-- Building settles while at most so many nodes are not under way. -/
def SettlesBuild (g : Graph) (root : NodeId) (bound : ℕ) : Prop :=
  ∀ deep b id, Sound g b → free g b ≤ bound → g.Reaches root id →
    Settles fun frames => build deep frames b id

/-- A node that is built with all its parts is under way meanwhile, so that fewer are left. -/
theorem build_settles (h : g.EndsBelow root)
    (hfill : ∀ b id, Sound g b → free g b < bound → g.Reaches root id →
      Settles fun frames => Builder.fill true frames b id)
    (hb : Sound g b) (hbound : free g b ≤ bound) (hid : g.Reaches root id) :
    Settles fun frames => Builder.build deep frames b id := by
  refine Settles.call ?_ fun frames => by rw [Builder.build]
  split
  · exact settles_of_ne (by simp)
  · split
    · exact settles_of_ne (by simp)
    · next hu =>
      dsimp only
      split
      · next read hread =>
        exact (scalarValue_settles h hb.graph.drawn hid hread).returning fun _ => ok_ne_cutShort _
      · split
        · next hcol =>
          split
          · have hsize : id < g.size := by
              rw [← hb.graph.steady.size]
              refine lt_size_of_tag fun hnull => ?_
              rw [hnull] at hcol
              exact absurd hcol (by decide)
            have hfree := free_enter (b := b) hsize (by simpa using hu)
            have hfilled := hfill _ id (hb.setUnderWay (id :: b.underWay)) (by omega) hid
            exact hfilled.returning fun _ => ok_ne_cutShort _
          · exact settles_of_ne (by simp)
        · exact settles_of_ne (by simp)

theorem Sound.isShallow (h : Sound g b) (ha : ¬ g.LeadsRound a) : b.IsShallow a :=
  Subrelation.accessible (fun hn => h.inside_of_names hn) (acc_inside ha)

/-- The key of a mapping that compares no circles is read to an end. -/
theorem Sound.frozenKey_settles (h : Sound g b) (hk : ¬ g.ComparesRound id)
    (he : ∀ e ∈ entries, IsEntryOf g id e) : Settles fun frames => b.frozenKey frames entries := by
  refine Builder.frozenKey_settles (R := fun x => ∃ key, g.Draws id (key, x)) (fun e hmem => (he e hmem).2)
    fun x y hx hy => ?_
  obtain ⟨key, hx⟩ := hx
  obtain ⟨key', hy⟩ := hy
  by_cases hxy : x = y
  · exact .inl hxy
  · by_cases hround : g.LeadsRound x
    · refine .inr (.inr (h.isShallow fun hround' => ?_))
      exact hk ⟨_, _, hx, hy, hxy, hround, hround'⟩
    · exact .inr (.inl (h.isShallow hround))

/-- A key that is a mapping is read before the mapping that it is a key of. -/
theorem keyValue_settles (h : SettlesBuild g root bound)
    (hmapping : ∀ k, g.KeyOf id k → ∀ b, Sound g b → free g b ≤ bound →
      Settles fun frames => Builder.mapping true frames b k)
    (hkeys : ∀ k, g.KeyOf id k → ¬ g.ComparesRound k)
    (hb : Sound g b) (hbound : free g b ≤ bound) (hid : g.Reaches root id)
    {e : NodeId × NodeId} (he : g.Draws id e) :
    Settles fun frames => keyValue frames (fun b id => Builder.mapping true frames b id)
      (fun b id => Builder.build deep frames b id) b e.1 := by
  unfold keyValue
  split
  · next hm =>
    rw [hb.graph.steady.isMapping] at hm
    have hk : g.KeyOf id e.1 := ⟨hm, e.2, he⟩
    have hgives := fun n => ((builds g root 0 n).mapping true b e.1 hb (hid.draws he).1.reached).gives
    refine (hmapping e.1 hk b hb hbound).bind hgives fun r hr => ?_
    exact (hr.1.sound.frozenKey_settles (hkeys e.1 hk) hr.2).returning fun _ => ok_ne_cutShort _
  · exact (h deep b e.1 hb hbound (hid.draws he).1).returning fun _ => ok_ne_cutShort _

theorem addEntry_settles (h : SettlesBuild g root bound)
    (hmapping : ∀ k, g.KeyOf id k → ∀ b, Sound g b → free g b ≤ bound →
      Settles fun frames => Builder.mapping true frames b k)
    (hkeys : ∀ k, g.KeyOf id k → ¬ g.ComparesRound k)
    {acc : Builder × List (Value × NodeId)} (hb : Sound g acc.1) (hbound : free g acc.1 ≤ bound)
    (hid : g.Reaches root id) {e : NodeId × NodeId} (he : g.Draws id e) :
    Settles fun frames => addEntry
      (keyValue frames (fun b id => Builder.mapping true frames b id)
        fun b id => Builder.build deep frames b id)
      (fun b id => Builder.build deep frames b id) acc e := by
  obtain ⟨b, done⟩ := acc
  simp only [addEntry]
  refine (keyValue_settles h hmapping hkeys hb hbound hid he).bind
    (fun n => (keyValue_ends (builds g root 0 n) hb hid.reached he.holds.1).gives) fun r hr => ?_
  split
  · exact settles_of_ne (by simp [unhashable])
  · exact (h deep r.1 e.2 hr.1.sound (hr.1.free_eq ▸ hbound) (hid.draws he).2).returning
      fun _ => ok_ne_cutShort _

/-- A mapping settles after the mappings among its keys, of which none is circular. -/
theorem mapping_settles (h : g.EndsBelow root) (hbuild : SettlesBuild g root bound)
    (hb : Sound g b) (hbound : free g b ≤ bound) (hid : g.Reaches root id) :
    Settles fun frames => Builder.mapping deep frames b id := by
  induction h.acc_key hid generalizing b deep with
  | intro id _ ih =>
    refine Settles.call ?_ fun frames => by rw [Builder.mapping]
    split
    · refine (flatten_settles b.graph id).bind (fun n => flatten_merged hb.graph n id) fun g' hg' => ?_
      have hstart : After g root b { b with graph := g' } :=
        ⟨hb.setGraph hg', rfl, fun _ hid => .inl hid⟩
      refine Settles.foldlM
        (S := fun acc : Builder × List (Value × NodeId) =>
          After g root b acc.1 ∧ ∀ e ∈ acc.2, IsEntryOf g id e)
        ⟨hstart, by simp⟩ (fun n acc hacc e he => ?_) fun acc hacc e he => ?_
      · exact (addEntry_ends (builds g root 0 n) hid.reached hacc (hg'.drawn.draws id e he)).gives
      · refine addEntry_settles hbuild (fun k hk b hb hbound => ?_) (fun k => h.keys id k hid)
          hacc.1.sound (hacc.1.free_eq ▸ hbound) hid (hg'.drawn.draws id e he)
        exact ih k hk hb hbound (hid.draws hk.2.choose_spec).1
    · exact settles_of_ne (by simp)

theorem addPair_settles (h : SettlesBuild g root bound) {acc : Builder × List (NodeId × NodeId)}
    (hb : Sound g acc.1) (hbound : free g acc.1 ≤ bound) {item : NodeId}
    (hitem : g.Reaches root item) :
    Settles fun frames => addPair (fun b id => Builder.build deep frames b id) acc item := by
  obtain ⟨b, done⟩ := acc
  simp only [addPair]
  split
  · next key content hn =>
    have he : (key, content) ∈ b.graph.entries item := by
      unfold Graph.entries
      rw [hn]
      simp
    have hparts := hitem.draws (hb.graph.drawn.draws item _ he)
    have hgives := fun n => ((builds g root 0 n).build deep b key hb hparts.1.reached).gives
    refine (h deep b key hb hbound hparts.1).bind hgives fun b₁ h₁ => ?_
    exact (h deep b₁ content h₁.sound (h₁.free_eq ▸ hbound) hparts.2).returning
      fun _ => ok_ne_cutShort _
  · exact settles_of_ne (by simp)
  · exact settles_of_ne (by simp)

theorem sequence_settles (h : SettlesBuild g root bound) (hb : Sound g b)
    (hbound : free g b ≤ bound) {items : List NodeId} (hi : ∀ item ∈ items, g.Reaches root item) :
    Settles fun frames => Builder.sequence deep frames b items := by
  refine Settles.call (y := fun frames => Builder.sequence deep (frames + 1) b items) ?_
    fun frames => rfl
  refine Settles.call ?_ fun frames => by rw [Builder.sequence]
  refine Settles.foldlM (S := After g root b) (after_refl hb) (fun n b' hb' item hmem => ?_)
    fun b' hb' item hmem => h deep b' item hb'.sound (hb'.free_eq ▸ hbound) (hi item hmem)
  have hbuilt := (builds g root 0 n).build deep b' item hb'.sound (hi item hmem).reached
  exact hbuilt.mono (fun _ _ => trivial) fun _ h => hb'.trans h

theorem fill_settles (h : SettlesBuild g root bound)
    (hmapping : ∀ deep, Settles fun frames => Builder.mapping deep frames b id)
    (hb : Sound g b) (hbound : free g b ≤ bound) (hid : g.Reaches root id) :
    Settles fun frames => Builder.fill deep frames b id := by
  have hparts : ∀ tag items, b.graph.node id = .sequence tag items →
      ∀ item ∈ items, item ∈ (g.node id).parts := by
    intro tag items hn item hi
    refine items_subset_parts _ ?_
    rw [← hb.graph.drawn.items, hn]
    exact hi
  have hitems : ∀ tag items, b.graph.node id = .sequence tag items →
      ∀ item ∈ items, g.Reaches root item := fun tag items hn item hi => hid.part (hparts tag items hn item hi)
  refine Settles.call ?_ fun frames => by rw [Builder.fill]
  dsimp only
  split
  · split
    · next tag items hn =>
      exact (sequence_settles h hb hbound (hitems tag items hn)).returning fun _ => ok_ne_cutShort _
    · exact settles_of_ne (by simp)
  · split
    · exact (hmapping deep).returning fun _ => ok_ne_cutShort _
    · split
      · exact (hmapping deep).returning fun _ => ok_ne_cutShort _
      · split
        · next tag items hn =>
          refine Settles.returning
            (Settles.foldlM (S := fun acc => After g root b acc.1 ∧ ∀ e ∈ acc.2, g.Holds id e)
              ⟨after_refl hb, by simp⟩ ?_ ?_)
            fun _ => ok_ne_cutShort _
          · intro n acc hacc item hi
            have hinside : g.Inside id item := ⟨0, .step .here (hparts tag items hn item hi)⟩
            exact (addPair_ends (builds g root 0 n) hid.reached hacc hinside).gives
          · exact fun acc hacc item hi => addPair_settles h hacc.1.sound (hacc.1.free_eq ▸ hbound)
              (hitems tag items hn item hi)
        · exact settles_of_ne (by simp)

theorem settlesBuild (h : g.EndsBelow root) (bound : ℕ) : SettlesBuild g root bound := by
  induction bound using Nat.strongRecOn with
  | ind bound ih =>
    intro deep b id hb hbound hid
    refine build_settles h (fun b id hb hlt hid => ?_) hb hbound hid
    have hbuild := ih (free g b) hlt
    exact fill_settles hbuild (fun deep => mapping_settles h hbuild hb le_rfl hid) hb le_rfl hid

end Builder

end CeilingGate.Yaml
