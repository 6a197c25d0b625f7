import CeilingGate.Proofs.Yaml.Calls
import CeilingGate.Yaml.Content

/-! Comparing nodes, as the sorting of a key's entries does. A comparison goes down two nodes side by side,
a call for each step, and it comes to an end if one of the two leads to no circle. -/
namespace CeilingGate.Yaml

/-- What readings in a row have if each of them has it. The number is that of the calls left. -/
structure Chains (J : ∀ α : Type, (Nat → Except Failure α) → Prop) : Prop where
  told : ∀ (α : Type) (r : Except Failure α), (∀ a, r ≠ .error (.abort a)) → J α fun _ => r
  bind : ∀ (α β : Type) (x : Nat → Except Failure α) (f : Nat → α → Except Failure β) (Q : α → Prop),
    J α x → (∀ n, Gives Q (x n)) → (∀ v, Q v → J β fun n => f n v) → J β fun n => x n >>= f n

theorem chains_ends (P : Abort → Prop) (n : Nat) :
    Chains fun _ x => Ends P (fun _ => True) (x n) where
  told := fun _ _ hr => ends_iff.mpr ⟨fun _ _ => trivial, fun a ha => (hr a ha).elim⟩
  bind := by
    intro α β x f Q hx hq hf
    refine Ends.bind (Q := Q) ?_ fun v hv => hf v hv
    rw [ends_iff] at hx ⊢
    exact ⟨gives_iff.mp (hq n), hx.2⟩

theorem chains_upto (n : Nat) : Chains fun _ x => Upto (x n) (x (n + 1)) where
  told := fun _ _ _ => upto_refl _
  bind := by
    intro α β x f Q hx hq hf
    have hq := gives_iff.mp (hq n)
    dsimp only at hx ⊢
    rcases hx with hshort | hsame
    · rw [hshort]
      exact upto_cutShort _
    · rw [← hsame]
      cases hr : x n with
      | ok v => exact hf v (hq v hr)
      | error e => exact upto_refl _

theorem chains_settles : Chains fun _ x => Settles x where
  told := fun _ _ hr => settles_of_ne (hr .tooDeep)
  bind := fun _ _ _ _ _ hx hq hf => hx.bind hq hf

/-- The nodes that a content names. -/
def Content.parts : Content → List NodeId
  | .leaf _ | .set _ => []
  | .list items => items
  | .dict entries => entries.map (·.2)
  | .pairs entries => Builder.pairNodes entries

namespace Builder

variable {b : Builder} {J : ∀ α : Type, (Nat → Except Failure α) → Prop}
  {f g : Nat → NodeId → NodeId → Build Bool} {x y : NodeId} {xs ys : List NodeId}

/-- A content of one node names another. -/
def Names (b : Builder) (x y : NodeId) : Prop := ∃ c, b.content? x = some c ∧ y ∈ c.parts

theorem sameNodes_chains (hJ : Chains J) (h : ∀ x ∈ xs, ∀ y ∈ ys, J Bool fun n => f n x y) :
    J Bool fun n => sameNodes (f n) xs ys := by
  induction xs generalizing ys with
  | nil => cases ys <;> exact hJ.told _ (.ok _) (by simp)
  | cons x xs ih =>
    cases ys with
    | nil => exact hJ.told _ (.ok _) (by simp)
    | cons y ys =>
      refine hJ.bind _ _ _ _ _ (h x (by simp) y (by simp)) (fun _ => gives_true) fun isSame _ => ?_
      cases isSame with
      | false => exact hJ.told _ (.ok _) (by simp)
      | true => exact ih fun x hx y hy => h x (by simp [hx]) y (by simp [hy])

theorem sameEntries_chains {others entries : List (Value × NodeId)} (hJ : Chains J)
    (h : ∀ e ∈ entries, ∀ o ∈ others, J Bool fun n => f n e.2 o.2) :
    J Bool fun n => sameEntries (f n) others entries := by
  induction entries with
  | nil => exact hJ.told _ (.ok _) (by simp)
  | cons e rest ih =>
    obtain ⟨k, x⟩ := e
    unfold sameEntries
    cases hfind : others.find? fun o => Value.sameKey o.1 k with
    | none => exact hJ.told _ (.ok _) (by simp)
    | some o =>
      have hhead := h (k, x) (by simp) o (List.mem_of_find?_eq_some hfind)
      refine hJ.bind _ _ _ _ _ hhead (fun _ => gives_true) fun isSame _ => ?_
      cases isSame with
      | false => exact hJ.told _ (.ok _) (by simp)
      | true => exact ih fun e he => h e (by simp [he])

theorem nodesBelow_chains (hJ : Chains J) (hf : ∀ x ∈ xs, ∀ y ∈ ys, J Bool fun n => f n x y)
    (hg : ∀ x ∈ xs, ∀ y ∈ ys, J Bool fun n => g n x y) :
    J Bool fun n => nodesBelow (f n) (g n) xs ys := by
  induction xs generalizing ys with
  | nil => cases ys <;> exact hJ.told _ (.ok _) (by simp)
  | cons x xs ih =>
    cases ys with
    | nil => exact hJ.told _ (.ok _) (by simp)
    | cons y ys =>
      refine hJ.bind _ _ _ _ _ (hf x (by simp) y (by simp)) (fun _ => gives_true) fun isSame _ => ?_
      cases isSame with
      | false => exact hg x (by simp) y (by simp)
      | true =>
        exact ih (fun x hx y hy => hf x (by simp [hx]) y (by simp [hy]))
          fun x hx y hy => hg x (by simp [hx]) y (by simp [hy])

/-- Two nodes are compared by comparing nodes that their contents name. -/
theorem same_chains (hJ : Chains J)
    (h : ∀ x' y', b.Names x x' → b.Names y y' → J Bool fun n => b.same n x' y') :
    J Bool fun n => b.same (n + 1) x y := by
  simp only [same]
  split
  · exact hJ.told _ (.ok _) (by simp)
  · split
    · exact hJ.told _ (.ok _) (by simp)
    · next hx hy =>
      split
      · exact sameNodes_chains hJ fun x' hx' y' hy' => h x' y' ⟨_, hx, hx'⟩ ⟨_, hy, hy'⟩
      · exact hJ.told _ (.ok _) (by simp)
    · next hx hy =>
      split
      · exact sameNodes_chains hJ fun x' hx' y' hy' => h x' y' ⟨_, hx, hx'⟩ ⟨_, hy, hy'⟩
      · exact hJ.told _ (.ok _) (by simp)
    · exact hJ.told _ (.ok _) (by simp)
    · exact hJ.told _ (.ok _) (by simp)
    · next hx hy =>
      split
      · refine sameEntries_chains hJ fun e he o ho => h e.2 o.2 ⟨_, hx, ?_⟩ ⟨_, hy, ?_⟩
        · exact List.mem_map_of_mem he
        · exact List.mem_map_of_mem ho
      · exact hJ.told _ (.ok _) (by simp)
    · exact hJ.told _ (.ok _) (by simp)
    · exact hJ.told _ (.ok _) (by simp)

theorem below_chains (hJ : Chains J)
    (hsame : ∀ x' y', b.Names x x' → b.Names y y' → J Bool fun n => b.same n x' y')
    (hbelow : ∀ x' y', b.Names x x' → b.Names y y' → J Bool fun n => b.below n x' y') :
    J Bool fun n => b.below (n + 1) x y := by
  simp only [below]
  split
  · split
    · exact hJ.told _ (.ok _) (by simp)
    · exact hJ.told _ (.error .badType) (by simp)
  · next hx hy =>
    exact nodesBelow_chains hJ (fun x' hx' y' hy' => hsame x' y' ⟨_, hx, hx'⟩ ⟨_, hy, hy'⟩)
      fun x' hx' y' hy' => hbelow x' y' ⟨_, hx, hx'⟩ ⟨_, hy, hy'⟩
  · next hx hy =>
    exact nodesBelow_chains hJ (fun x' hx' y' hy' => hsame x' y' ⟨_, hx, hx'⟩ ⟨_, hy, hy'⟩)
      fun x' hx' y' hy' => hbelow x' y' ⟨_, hx, hx'⟩ ⟨_, hy, hy'⟩
  · split
    · exact hJ.told _ (.ok _) (by simp)
    · exact hJ.told _ (.error .badType) (by simp)
  · split
    · exact hJ.told _ (.ok _) (by simp)
    · exact hJ.told _ (.error .badType) (by simp)
  · exact hJ.told _ (.ok _) (by simp)
  · exact hJ.told _ (.error .badType) (by simp)

/-! ## Sorting the entries of a key -/

variable {entries : List (RawText × NodeId)} {R : RawText × NodeId → Prop} {e : RawText × NodeId}

theorem insertEntry_gives {below : RawText × NodeId → RawText × NodeId → Build Bool} (he : R e)
    (h : ∀ f ∈ entries, R f) : Gives (fun r => ∀ f ∈ r, R f) (insertEntry below e entries) := by
  induction entries with
  | nil =>
    intro f hf
    rw [List.mem_singleton.mp hf]
    exact he
  | cons first rest ih =>
    unfold insertEntry
    refine Ends.bind (gives_true) fun isBelow _ => ?_
    split
    · intro f hf
      rcases List.mem_cons.mp hf with rfl | hf
      · exact he
      · exact h f hf
    · refine (ih fun f hf => h f (by simp [hf])).bind fun r hr f hf => ?_
      rcases List.mem_cons.mp hf with rfl | hf
      · exact h f (by simp)
      · exact hr f hf

/-- Texts come in the order of the sorting. -/
def InOrder (e f : RawText × NodeId) : Prop := ¬ f.1 < e.1

theorem InOrder.trans {d e f : RawText × NodeId} (h : InOrder d e) (h' : InOrder e f) : InOrder d f := by
  intro hlt
  by_cases hde : d.1 = e.1
  · exact h' (hde ▸ hlt)
  · rcases RawText.lt_or_gt_of_ne hde with hgt | hgt
    · exact h' (RawText.lt_trans hlt hgt)
    · exact h hgt

theorem entryBelow_gives (b : Builder) (n : Nat) (e f : RawText × NodeId) :
    Gives (fun isBelow => if isBelow = true then InOrder e f else InOrder f e)
      (b.entryBelow n e f) := by
  unfold entryBelow InOrder
  split
  · next heq => exact gives_iff.mpr fun isBelow _ => by simp [heq, RawText.lt_irrefl]
  · next hne =>
    rcases RawText.lt_or_gt_of_ne hne with hlt | hgt
    · have hnot : ¬ f.1 < e.1 := fun h => RawText.lt_irrefl e.1 (RawText.lt_trans hlt h)
      simp [hlt, hnot]
    · have hnot : ¬ e.1 < f.1 := fun h => RawText.lt_irrefl e.1 (RawText.lt_trans h hgt)
      simp [hnot]

theorem insertEntry_inOrder (b : Builder) (n : Nat) (e : RawText × NodeId)
    (h : entries.Pairwise InOrder) :
    Gives (fun r => r.Perm (e :: entries) ∧ r.Pairwise InOrder)
      (insertEntry (b.entryBelow n) e entries) := by
  induction entries with
  | nil => exact ⟨.refl _, List.pairwise_singleton _ _⟩
  | cons first rest ih =>
    obtain ⟨hfirst, hrest⟩ := List.pairwise_cons.mp h
    unfold insertEntry
    refine (entryBelow_gives b n e first).bind fun isBelow hbelow => ?_
    split
    · next htrue =>
      have he : InOrder e first := by simpa [htrue] using hbelow
      refine ⟨.refl _, List.pairwise_cons.mpr ⟨fun f hf => ?_, h⟩⟩
      rcases List.mem_cons.mp hf with rfl | hf
      · exact he
      · exact he.trans (hfirst f hf)
    · next hfalse =>
      have he : InOrder first e := by simpa [hfalse] using hbelow
      refine (ih hrest).bind fun r hr => ⟨?_, List.pairwise_cons.mpr ⟨fun f hf => ?_, hr.2⟩⟩
      · exact (hr.1.cons first).trans (.swap e first rest)
      · rcases List.mem_cons.mp (hr.1.subset hf) with rfl | hf
        · exact he
        · exact hfirst f hf

/-- Sorting the entries of a key puts them in the order of their texts. -/
theorem sortEntries_inOrder (b : Builder) (n : Nat) (entries : List (RawText × NodeId)) :
    Gives (fun r => r.Perm entries ∧ r.Pairwise InOrder) (sortEntries (b.entryBelow n) entries) := by
  unfold sortEntries
  suffices hfold : ∀ sorted : List (RawText × NodeId), sorted.Pairwise InOrder →
      Gives (fun r => r.Perm (sorted ++ entries) ∧ r.Pairwise InOrder)
        (entries.foldlM (fun sorted e => insertEntry (b.entryBelow n) e sorted) sorted) by
    simpa using hfold [] .nil
  induction entries with
  | nil => exact fun sorted h => ⟨by simp, h⟩
  | cons e rest ih =>
    intro sorted h
    rw [List.foldlM_cons]
    refine (insertEntry_inOrder b n e h).bind fun r hr => ?_
    refine (ih r hr.2).mono (fun _ h => h) fun r' hr' => ⟨hr'.1.trans ?_, hr'.2⟩
    exact (hr.1.append_right rest).trans List.perm_middle.symm

theorem insertEntry_chains {below : Nat → RawText × NodeId → RawText × NodeId → Build Bool}
    (hJ : Chains J) (he : R e) (h : ∀ f ∈ entries, R f)
    (hbelow : ∀ e f, R e → R f → J Bool fun n => below n e f) :
    J _ fun n => insertEntry (below n) e entries := by
  induction entries with
  | nil => exact hJ.told _ (.ok _) (by simp)
  | cons first rest ih =>
    simp only [insertEntry]
    refine hJ.bind _ _ _ _ _ (hbelow e first he (h first (by simp))) (fun _ => gives_true)
      fun isBelow _ => ?_
    cases isBelow with
    | true => exact hJ.told _ (.ok _) (by simp)
    | false =>
      refine hJ.bind _ _ _ _ _ (ih fun f hf => h f (by simp [hf])) (fun _ => gives_true)
        fun r _ => hJ.told _ (.ok _) (by simp)

theorem sortEntries_chains {below : Nat → RawText × NodeId → RawText × NodeId → Build Bool}
    (hJ : Chains J) (h : ∀ f ∈ entries, R f)
    (hbelow : ∀ e f, R e → R f → J Bool fun n => below n e f) :
    J _ fun n => sortEntries (below n) entries := by
  unfold sortEntries
  suffices hfold : ∀ sorted : List (RawText × NodeId), (∀ f ∈ sorted, R f) →
      J _ fun n => entries.foldlM (fun sorted e => insertEntry (below n) e sorted) sorted from
    hfold [] (by simp)
  induction entries with
  | nil => exact fun _ _ => hJ.told _ (.ok _) (by simp)
  | cons e rest ih =>
    intro sorted hsorted
    have he := h e (by simp)
    simp only [List.foldlM_cons]
    exact hJ.bind _ _ _ _ _ (insertEntry_chains hJ he hsorted hbelow)
      (fun n => insertEntry_gives he hsorted) fun r hr => ih (fun f hf => h f (by simp [hf])) r hr

theorem textEntry_told (e : Value × NodeId) (a : Abort) : textEntry e ≠ .error (.abort a) := by
  unfold textEntry
  split <;> simp

theorem textEntry_gives (e : Value × NodeId) : Gives (fun r => r.2 = e.2) (textEntry e) := by
  unfold textEntry
  split
  · rfl
  · trivial

theorem same_self (b : Builder) (n : Nat) (x y : NodeId) :
    Gives (fun isSame => x = y → isSame = true) (b.same n x y) := by
  refine gives_iff.mpr fun isSame h hxy => ?_
  cases n with
  | zero => cases h
  | succ n =>
    rw [same, if_pos hxy] at h
    exact (Except.ok.inj h).symm

/-- A key is read by comparing contents of its entries. -/
theorem frozenKey_chains {entries : List (Value × NodeId)} {R : NodeId → Prop} (hJ : Chains J)
    (h : ∀ e ∈ entries, R e.2) (hsame : ∀ x y, R x → R y → J Bool fun n => b.same n x y)
    (hbelow : ∀ x y, x ≠ y → R x → R y → J Bool fun n => b.below n x y) :
    J Value fun n => b.frozenKey n entries := by
  have hnamed : Ends (fun _ => False) (fun r => ∀ e ∈ r, R e.2) (entries.mapM textEntry) := by
    refine Ends.mapM fun e he => ends_iff.mpr ⟨fun r hr => ?_, textEntry_told e⟩
    rw [gives_iff.mp (textEntry_gives e) r hr]
    exact h e he
  rw [ends_iff] at hnamed
  unfold frozenKey
  refine hJ.bind _ _ _ _ _ (hJ.told _ _ hnamed.2) (fun _ => gives_iff.mpr hnamed.1) fun named hr => ?_
  refine hJ.bind _ _ _ _ _ (sortEntries_chains (R := fun e => R e.2) hJ hr fun e f he hf => ?_)
    (fun _ => gives_true) fun sorted _ => hJ.told _ (.ok _) (by simp)
  unfold entryBelow
  split
  · refine hJ.bind _ _ _ _ _ (hsame _ _ he hf) (fun n => same_self b n _ _) fun isSame hself => ?_
    cases isSame with
    | true => exact hJ.told _ (.ok _) (by simp)
    | false => exact hbelow _ _ (fun heq => Bool.noConfusion (hself heq)) he hf
  · exact hJ.told _ (.ok _) (by simp)

/-! ## The calls for a comparison -/

theorem same_upto (b : Builder) (n : Nat) (x y : NodeId) : Upto (b.same n x y) (b.same (n + 1) x y) := by
  induction n generalizing x y with
  | zero => exact upto_cutShort _
  | succ n ih => exact same_chains (chains_upto n) fun x' y' _ _ => ih x' y'

theorem below_upto (b : Builder) (n : Nat) (x y : NodeId) :
    Upto (b.below n x y) (b.below (n + 1) x y) := by
  induction n generalizing x y with
  | zero => exact upto_cutShort _
  | succ n ih =>
    exact below_chains (chains_upto n) (fun x' y' _ _ => same_upto b n x' y') fun x' y' _ _ => ih x' y'

theorem frozenKey_upto (b : Builder) (n : Nat) (entries : List (Value × NodeId)) :
    Upto (b.frozenKey n entries) (b.frozenKey (n + 1) entries) :=
  frozenKey_chains (R := fun _ => True) (chains_upto n) (fun _ _ => trivial)
    (fun x y _ _ => same_upto b n x y) fun x y _ _ _ => below_upto b n x y

section

variable {P : Abort → Prop} {S : Nat → NodeId → Prop} (h0 : ∀ x, S 0 x → P .tooDeep)
  (hstep : ∀ n x x', S (n + 1) x → b.Names x x' → S n x')
include h0 hstep

/-- A comparison is cut short only where the calls left on the way down the first node run out. -/
theorem same_ends (n : Nat) {x : NodeId} (y : NodeId) (hx : S n x) :
    Ends P (fun _ => True) (b.same n x y) := by
  induction n generalizing x y with
  | zero => exact h0 x hx
  | succ n ih => exact same_chains (chains_ends P n) fun x' y' hx' _ => ih y' (hstep n x x' hx hx')

theorem below_ends (n : Nat) {x : NodeId} (y : NodeId) (hx : S n x) :
    Ends P (fun _ => True) (b.below n x y) := by
  induction n generalizing x y with
  | zero => exact h0 x hx
  | succ n ih =>
    exact below_chains (chains_ends P n)
      (fun x' y' hx' _ => same_ends h0 hstep n y' (hstep n x x' hx hx'))
      fun x' y' hx' _ => ih y' (hstep n x x' hx hx')

theorem frozenKey_ends {n : Nat} {entries : List (Value × NodeId)} (h : ∀ e ∈ entries, S n e.2) :
    Ends P (fun _ => True) (b.frozenKey n entries) :=
  frozenKey_chains (chains_ends P n) h (fun _ y hx _ => same_ends h0 hstep n y hx)
    fun _ y _ hx _ => below_ends h0 hstep n y hx

end

/-- A node that no way down from leads on for ever. -/
abbrev IsShallow (b : Builder) (x : NodeId) : Prop := Acc (fun c a => b.Names a c) x

theorem same_settles (h : x = y ∨ b.IsShallow x ∨ b.IsShallow y) :
    Settles fun n => b.same n x y := by
  refine Settles.call (y := fun n => b.same (n + 1) x y) ?_ fun _ => rfl
  rcases h with rfl | h | h
  · simp only [same, if_true]
    exact settles_of_ne (by simp)
  · induction h generalizing y with
    | intro x _ ih =>
      exact same_chains chains_settles fun x' y' hx' _ => (ih x' hx').call fun _ => rfl
  · induction h generalizing x with
    | intro y _ ih =>
      exact same_chains chains_settles fun x' y' _ hy' => (ih y' hy').call fun _ => rfl

theorem below_settles (h : b.IsShallow x ∨ b.IsShallow y) : Settles fun n => b.below n x y := by
  refine Settles.call (y := fun n => b.below (n + 1) x y) ?_ fun _ => rfl
  rcases h with h | h
  · induction h generalizing y with
    | intro x hx ih =>
      exact below_chains chains_settles (fun x' y' hx' _ => same_settles (.inr (.inl (hx x' hx'))))
        fun x' y' hx' _ => (ih x' hx').call fun _ => rfl
  · induction h generalizing x with
    | intro y hy ih =>
      exact below_chains chains_settles (fun x' y' _ hy' => same_settles (.inr (.inr (hy y' hy'))))
        fun x' y' _ hy' => (ih y' hy').call fun _ => rfl

/-- A key is read to an end if of any two different contents one is shallow. -/
theorem frozenKey_settles {entries : List (Value × NodeId)} {R : NodeId → Prop}
    (h : ∀ e ∈ entries, R e.2)
    (hR : ∀ x y, R x → R y → x = y ∨ b.IsShallow x ∨ b.IsShallow y) :
    Settles fun n => b.frozenKey n entries :=
  frozenKey_chains chains_settles h (fun x y hx hy => same_settles (hR x y hx hy))
    fun x y hne hx hy => below_settles ((hR x y hx hy).resolve_left hne)

end Builder

end CeilingGate.Yaml
