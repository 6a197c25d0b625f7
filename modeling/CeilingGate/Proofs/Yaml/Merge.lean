import CeilingGate.Proofs.Yaml.Walk
import CeilingGate.Yaml.Content

/-! Merging fails for good only where nodes are inside each other deeper than calls may be. -/
namespace CeilingGate.Yaml.Graph

variable {g g' : Graph} {a b id root content : NodeId} {limit frames spent : Nat} {P : Abort → Prop}
  {e : NodeId × NodeId} {es merged : List (NodeId × NodeId)}

/-- A node at which `frames` calls are left of `limit`: the way to it accounts for all calls that were
made, but for those `spent` at the node itself. -/
def Reached (g : Graph) (root : NodeId) (limit frames spent : Nat) (id : NodeId) : Prop :=
  ∃ n, Walk g root n id ∧ limit ≤ frames + spent + 4 * n

/-- Nodes are inside each other so deep that the calls for them may be more than the limit. -/
def TooDeep (g : Graph) (root : NodeId) (limit : Nat) : Prop :=
  ∃ n id, Walk g root n id ∧ limit ≤ 4 * n + 3

theorem reached_root (g : Graph) (root : NodeId) (limit : Nat) : Reached g root limit limit 0 root :=
  ⟨0, .here, by omega⟩

theorem Reached.reaches (h : Reached g root limit frames spent id) : g.Reaches root id := by
  obtain ⟨n, hn, _⟩ := h
  exact ⟨n, hn⟩

theorem Reaches.reached (h : g.Reaches root id) : Reached g root 0 frames spent id := by
  obtain ⟨n, hn⟩ := h
  exact ⟨n, hn, Nat.zero_le _⟩

theorem Reached.call (h : Reached g root limit (frames + 1) spent id) :
    Reached g root limit frames (spent + 1) id := by
  obtain ⟨n, hw, hn⟩ := h
  exact ⟨n, hw, by omega⟩

theorem Reached.mono {frames' spent' : Nat} (h : Reached g root limit frames spent id)
    (hf : frames ≤ frames') (hs : spent ≤ spent') : Reached g root limit frames' spent' id := by
  obtain ⟨n, hw, hn⟩ := h
  exact ⟨n, hw, by omega⟩

/-- Four calls at a node pay for the step to a node inside. -/
theorem Reached.enter (h : Reached g root limit frames spent a) (hs : spent ≤ 4)
    (hb : g.Inside a b) : Reached g root limit frames 0 b := by
  obtain ⟨n, hw, hn⟩ := h
  obtain ⟨m, hm⟩ := hb
  exact ⟨n + (m + 1), hw.append hm, by omega⟩

theorem Reached.tooDeep (h : Reached g root limit 0 spent id) (hs : spent ≤ 3) :
    g.TooDeep root limit := by
  obtain ⟨n, hw, hn⟩ := h
  exact ⟨n, id, hw, by omega⟩

theorem Derived.passEntries (h : Derived g g') (es : List (NodeId × NodeId)) :
    Derived g (g'.passEntries es).2 := by
  induction es generalizing g' with
  | nil => exact h
  | cons e rest ih =>
    unfold Graph.passEntries
    split
    · exact h
    · dsimp only
      split
      · exact ih (h.asText e.1)
      · exact ih h

theorem mergeItem_ends {flatten : Graph → NodeId → Except Failure Graph}
    (hf : ∀ g' b, Derived g g' → g.Inside id b → Ends P (Derived g) (flatten g' b))
    {acc : Graph × List (List (NodeId × NodeId))} {item : NodeId}
    (h : Derived g acc.1) (hp : ∀ part ∈ acc.2, ∀ e ∈ part, g.Holds id e) (hi : g.Inside id item) :
    Ends P (fun r => Derived g r.1 ∧ ∀ part ∈ r.2, ∀ e ∈ part, g.Holds id e)
      (mergeItem flatten acc item) := by
  obtain ⟨g₁, parts⟩ := acc
  rw [mergeItem]
  split
  · refine (hf g₁ item h hi).bind ?_
    intro g₂ h₂
    refine ⟨h₂, ?_⟩
    intro part hpart e he
    rcases List.mem_append.mp hpart with hpart | hpart
    · exact hp part hpart e he
    · rw [List.mem_singleton.mp hpart] at he
      exact (h₂.entry he).inside hi
  · trivial

theorem mergedEntries_ends {flatten : Graph → NodeId → Except Failure Graph}
    (hf : ∀ g' b, Derived g g' → g.Inside id b → Ends P (Derived g) (flatten g' b))
    (h : Derived g g') (hc : g.Inside id content) :
    Ends P (fun r => Derived g r.1 ∧ ∀ e ∈ r.2, g.Holds id e)
      (g'.mergedEntries flatten content) := by
  unfold mergedEntries
  split
  · refine (hf g' content h hc).bind ?_
    intro g₁ h₁
    exact ⟨h₁, fun e he => (h₁.entry he).inside hc⟩
  · next tag items hn =>
    have hitems : ∀ item ∈ items, g.Inside id item := by
      intro item hi
      refine hc.trans (h.parts content item ?_)
      rw [hn]
      exact hi
    refine (Ends.foldlM ⟨h, by simp⟩ fun acc hacc item hi =>
      mergeItem_ends hf hacc.1 hacc.2 (hitems item hi)).bind ?_
    rintro ⟨g₁, parts⟩ ⟨h₁, hp⟩
    refine ⟨h₁, ?_⟩
    intro e he
    obtain ⟨part, hpart, he⟩ := List.mem_flatten.mp he
    exact hp part (List.mem_reverse.mp hpart) e he
  · trivial
  · trivial

theorem Derived.prepend (h : Derived g g') (hm : ∀ e ∈ merged, g.Holds id e) :
    Derived g (if merged.isEmpty then g' else g'.setEntries id (merged ++ g'.entries id)) := by
  split
  · exact h
  · refine h.setEntries ?_
    intro e he
    rcases List.mem_append.mp he with he | he
    · exact hm e he
    · exact h.entry he

/-- Resolving merge keys, one of which is removed in each step. -/
theorem flattenFrom_ends (hP : g.TooDeep root limit → P .tooDeep) (keys position : Nat)
    (h : Derived g g') (hr : Reached g root limit frames 3 id) (hm : ∀ e ∈ merged, g.Holds id e) :
    Ends P (Derived g) (g'.flattenFrom keys frames id position merged) := by
  induction keys generalizing g' id frames position merged with
  | zero =>
    rw [flattenFrom]
    split
    · next hf =>
      rw [hf] at hr
      exact hP (hr.tooDeep (by omega))
    · exact (h.passEntries _).prepend hm
  | succ keys ih =>
    have hpassed := h.passEntries ((g'.entries id).drop position)
    rw [flattenFrom]
    generalize g'.passEntries ((g'.entries id).drop position) = passed at hpassed ⊢
    obtain ⟨n, g₁⟩ := passed
    dsimp only at hpassed ⊢
    split
    · next hf =>
      rw [hf] at hr
      exact hP (hr.tooDeep (by omega))
    · next hf =>
      split
      · next key content hkeys hget =>
        cases hkeys
        have hc : g.Inside id content := (hpassed.entry (List.mem_of_getElem? hget)).2
        have hrest : Derived g (g₁.setEntries id ((g₁.entries id).eraseIdx (position + n))) :=
          hpassed.setEntries fun e he => hpassed.entry (List.mem_of_mem_eraseIdx he)
        have hnamed : ∀ g' b, Derived g g' → g.Inside id b →
            Ends P (Derived g) (g'.flattenFrom keys (frames - 1) b 0 []) := by
          intro g₂ b h₂ hb
          obtain ⟨f, rfl⟩ := Nat.exists_eq_succ_of_ne_zero hf
          have hcall : Reached g root limit f 1 b := (hr.enter (by omega) hb).call
          exact ih 0 h₂ (hcall.mono (Nat.le_refl _) (by omega)) (by simp)
        refine (mergedEntries_ends hnamed hrest hc).bind ?_
        rintro ⟨g₂, found⟩ ⟨h₂, hfound⟩
        refine ih (position + n) h₂ hr ?_
        intro e he
        rcases List.mem_append.mp he with he | he
        · exact hm e he
        · exact hfound e he
      · exact hpassed.prepend hm

theorem flatten_ends (hP : g.TooDeep root limit → P .tooDeep) (h : Derived g g')
    (hr : Reached g root limit frames 3 id) : Ends P (Derived g) (g'.flatten frames id) :=
  flattenFrom_ends hP _ 0 h hr (by simp)

end CeilingGate.Yaml.Graph
