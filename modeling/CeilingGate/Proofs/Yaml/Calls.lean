import CeilingGate.Proofs.Yaml.Ends
import CeilingGate.Yaml.Node.Merge
import Mathlib.Data.Nat.Find

/-! What the number of calls that may be under way changes: nothing but whether a reading is cut short.
-/
namespace CeilingGate.Yaml

variable {α β σ : Type} {x y z : Except Failure α}

/-- A reading that ran out of calls. -/
abbrev cutShort : Except Failure α := .error (.abort .tooDeep)

instance (x : Except Failure α) : Decidable (x = cutShort) :=
  match x with
  | .ok _ => .isFalse (by simp)
  | .error f => decidable_of_iff (f = .abort .tooDeep) (by simp)

/-- One reading is another, or was cut short. -/
def Upto (x y : Except Failure α) : Prop := x = cutShort ∨ x = y

theorem upto_refl (x : Except Failure α) : Upto x x := Or.inr rfl

theorem upto_cutShort (y : Except Failure α) : Upto cutShort y := Or.inl rfl

theorem Upto.trans (h : Upto x y) (h' : Upto y z) : Upto x z := by
  rcases h with rfl | rfl
  · exact upto_cutShort z
  · exact h'

theorem Upto.bind {f f' : α → Except Failure β} (h : Upto x y) (hf : ∀ v, Upto (f v) (f' v)) :
    Upto (x >>= f) (y >>= f') := by
  rcases h with rfl | rfl
  · exact upto_cutShort _
  · cases x with
    | ok v => exact hf v
    | error e => exact upto_refl _

theorem Upto.foldlM {f f' : σ → α → Except Failure σ} (hf : ∀ s x, Upto (f s x) (f' s x))
    (xs : List α) (s : σ) : Upto (xs.foldlM f s) (xs.foldlM f' s) := by
  induction xs generalizing s with
  | nil => exact upto_refl _
  | cons x xs ih =>
    rw [List.foldlM_cons, List.foldlM_cons]
    exact (hf s x).bind ih

/-! ## Readings that settle -/

/-- With enough calls a reading has one outcome, and it is not cut short. -/
def Settles (x : Nat → Except Failure α) : Prop :=
  ∃ enough outcome, outcome ≠ cutShort ∧ ∀ frames, enough ≤ frames → x frames = outcome

section Settles

variable {x y : Nat → Except Failure α} {r : Except Failure α} {Q : α → Prop}

theorem gives_true {r : Except Failure α} : Gives (fun _ => True) r := gives_iff.mpr fun _ _ => trivial

theorem settles_of_ne (h : r ≠ cutShort) : Settles fun _ => r := ⟨0, r, h, fun _ _ => rfl⟩

theorem ok_ne_cutShort (v : α) : (.ok v : Except Failure α) ≠ cutShort := by simp

theorem ne_cutShort (h : Ends (· ≠ .tooDeep) Q r) : r ≠ cutShort := by
  rintro rfl
  exact h rfl

theorem Settles.later (h : Settles x) : Settles fun frames => x (frames + 1) := by
  obtain ⟨enough, r, hr, hx⟩ := h
  exact ⟨enough, r, hr, fun frames hf => hx (frames + 1) (by omega)⟩

/-- A call that is made before settles as what it calls. -/
theorem Settles.call (h : Settles y) (hx : ∀ frames, x (frames + 1) = y frames) : Settles x := by
  obtain ⟨enough, r, hr, hy⟩ := h
  refine ⟨enough + 1, r, hr, fun frames hf => ?_⟩
  obtain ⟨f, rfl⟩ := Nat.exists_eq_add_of_le' (show 1 ≤ frames by omega)
  rw [hx, hy f (by omega)]

theorem Settles.bind {f : Nat → α → Except Failure β} (h : Settles x) (hq : ∀ n, Gives Q (x n))
    (hf : ∀ v, Q v → Settles fun frames => f frames v) :
    Settles fun frames => x frames >>= f frames := by
  obtain ⟨enough, r, hr, hx⟩ := h
  cases r with
  | error e =>
    refine ⟨enough, .error e, fun he => hr ?_, fun frames hle => ?_⟩
    · cases he
      rfl
    · dsimp only
      rw [hx frames hle]
      rfl
  | ok v =>
    have hv : Q v := by
      have := hq enough
      rwa [hx enough le_rfl] at this
    obtain ⟨more, r', hr', hf⟩ := hf v hv
    refine ⟨max enough more, r', hr', fun frames hle => ?_⟩
    dsimp only
    rw [hx frames (by omega)]
    exact hf frames (by omega)

/-- A reading that settles still does when it goes on without further calls. -/
theorem Settles.returning {f : α → Except Failure β} (h : Settles x) (hf : ∀ v, f v ≠ cutShort) :
    Settles fun frames => x frames >>= f :=
  h.bind (fun _ => gives_true) fun v _ => settles_of_ne (hf v)

theorem Settles.foldlM {f : Nat → σ → α → Except Failure σ} {xs : List α} {S : σ → Prop} {s : σ}
    (hs : S s) (hq : ∀ n s, S s → ∀ x ∈ xs, Gives S (f n s x))
    (hf : ∀ s, S s → ∀ x ∈ xs, Settles fun frames => f frames s x) :
    Settles fun frames => xs.foldlM (f frames) s := by
  induction xs generalizing s with
  | nil => exact settles_of_ne (by simp)
  | cons x xs ih =>
    simp only [List.foldlM_cons]
    refine (hf s hs x (by simp)).bind (fun n => hq n s hs x (by simp)) fun s' hs' => ?_
    exact ih hs' (fun n s hs x hx => hq n s hs x (by simp [hx]))
      fun s hs x hx => hf s hs x (by simp [hx])

/-- How many calls a reading needs: with fewer it is cut short, with as many it has its outcome. -/
theorem Settles.exists_needed (h : Settles x) (hx : ∀ {n m}, n ≤ m → Upto (x n) (x m)) :
    ∃ needed outcome, outcome ≠ cutShort ∧
      ∀ frames, x frames = if frames < needed then cutShort else outcome := by
  classical
  obtain ⟨enough, r, hr, hsettled⟩ := h
  have hsome : ∃ n, x n ≠ cutShort := ⟨enough, by rwa [hsettled enough le_rfl]⟩
  refine ⟨Nat.find hsome, x (Nat.find hsome), Nat.find_spec hsome, fun frames => ?_⟩
  split
  · next hlt => exact not_not.mp (Nat.find_min hsome hlt)
  · next hle =>
    rcases hx (not_lt.mp hle) with hshort | hsame
    · exact (Nat.find_spec hsome hshort).elim
    · exact hsame.symm

end Settles

/-! ## Merging -/

namespace Graph

theorem mergeItem_upto {f f' : Graph → NodeId → Except Failure Graph}
    (hf : ∀ g id, Upto (f g id) (f' g id)) (acc : Graph × List (List (NodeId × NodeId)))
    (item : NodeId) : Upto (mergeItem f acc item) (mergeItem f' acc item) := by
  obtain ⟨g, parts⟩ := acc
  rw [mergeItem, mergeItem]
  split
  · exact (hf g item).bind fun _ => upto_refl _
  · exact upto_refl _

theorem mergedEntries_upto {f f' : Graph → NodeId → Except Failure Graph}
    (hf : ∀ g id, Upto (f g id) (f' g id)) (g : Graph) (content : NodeId) :
    Upto (g.mergedEntries f content) (g.mergedEntries f' content) := by
  unfold mergedEntries
  split
  · exact (hf g content).bind fun _ => upto_refl _
  · exact (Upto.foldlM (mergeItem_upto hf) _ _).bind fun _ => upto_refl _
  · exact upto_refl _
  · exact upto_refl _

theorem flattenFrom_upto (keys frames : Nat) (g : Graph) (id : NodeId) (position : Nat)
    (merged : List (NodeId × NodeId)) :
    Upto (g.flattenFrom keys frames id position merged)
      (g.flattenFrom keys (frames + 1) id position merged) := by
  induction keys generalizing frames g id position merged with
  | zero =>
    rw [flattenFrom, flattenFrom, if_neg (Nat.succ_ne_zero frames)]
    split
    · exact upto_cutShort _
    · exact upto_refl _
  | succ keys ih =>
    rw [flattenFrom, flattenFrom, if_neg (Nat.succ_ne_zero frames)]
    split
    · exact upto_cutShort _
    · next hf =>
      obtain ⟨f, rfl⟩ := Nat.exists_eq_succ_of_ne_zero hf
      dsimp only
      split
      · next hkeys _ =>
        cases hkeys
        refine (mergedEntries_upto (fun g named => ih f g named 0 []) _ _).bind ?_
        rintro ⟨g₂, found⟩
        exact ih (f + 1) g₂ id _ _
      · exact upto_refl _

theorem flatten_upto (g : Graph) (frames : Nat) (id : NodeId) :
    Upto (g.flatten frames id) (g.flatten (frames + 1) id) := flattenFrom_upto _ frames g id 0 []

theorem mergeItem_settles {f : Nat → Graph → NodeId → Except Failure Graph}
    (hf : ∀ g id, Settles fun frames => f frames g id)
    (acc : Graph × List (List (NodeId × NodeId))) (item : NodeId) :
    Settles fun frames => mergeItem (f frames) acc item := by
  obtain ⟨g, parts⟩ := acc
  simp only [mergeItem]
  split
  · exact (hf g item).returning fun _ => ok_ne_cutShort _
  · exact settles_of_ne (by simp)

theorem mergedEntries_settles {f : Nat → Graph → NodeId → Except Failure Graph}
    (hf : ∀ g id, Settles fun frames => f frames g id) (g : Graph) (content : NodeId) :
    Settles fun frames => g.mergedEntries (f frames) content := by
  unfold mergedEntries
  split
  · exact (hf g content).returning fun _ => ok_ne_cutShort _
  · refine Settles.returning (Settles.foldlM (S := fun _ => True) trivial ?_ ?_) fun _ => ok_ne_cutShort _
    · exact fun _ _ _ _ _ => gives_true
    · exact fun acc _ item _ => mergeItem_settles hf acc item
  · exact settles_of_ne (by simp)
  · exact settles_of_ne (by simp)

/-- Merge keys are removed before what they name is entered, so all calls for them come to an end. -/
theorem flattenFrom_settles (keys : Nat) (g : Graph) (id : NodeId) (position : Nat)
    (merged : List (NodeId × NodeId)) :
    Settles fun frames => g.flattenFrom keys frames id position merged := by
  induction keys generalizing g id position merged with
  | zero =>
    refine Settles.call (settles_of_ne ?_) fun frames => by
      rw [flattenFrom, if_neg (Nat.succ_ne_zero frames)]
    simp
  | succ keys ih =>
    refine Settles.call ?_ fun frames => by rw [flattenFrom, if_neg (Nat.succ_ne_zero frames)]
    generalize g.passEntries ((g.entries id).drop position) = passed
    obtain ⟨n, g₁⟩ := passed
    dsimp only
    cases (g₁.entries id)[position + n]? with
    | none => exact settles_of_ne (by simp)
    | some e =>
      refine (mergedEntries_settles (fun g named => ih g named 0 []) _ _).bind (fun _ => gives_true)
        fun r _ => ?_
      exact (ih r.1 id _ _).later

theorem flatten_settles (g : Graph) (id : NodeId) : Settles fun frames => g.flatten frames id :=
  flattenFrom_settles _ g id 0 []

end Graph

end CeilingGate.Yaml
