/-! Sorting by code points. -/
namespace CeilingGate.Text

def insertBy {α : Type} (before : α → α → Bool) (x : α) : List α → List α
  | [] => [x]
  | y :: rest => if before x y then x :: y :: rest else y :: insertBy before x rest

/-- A stable sort: an item goes behind all that it is not before. -/
def sortBy {α : Type} (before : α → α → Bool) (xs : List α) : List α :=
  xs.foldl (fun sorted x => insertBy before x sorted) []

section

variable {α : Type} {before : α → α → Bool} {x : α} {xs ys : List α}

theorem perm_insertBy (before : α → α → Bool) (x : α) (ys : List α) :
    (insertBy before x ys).Perm (x :: ys) := by
  induction ys with
  | nil => exact .refl _
  | cons y rest ih =>
    unfold insertBy
    split
    · exact .refl _
    · exact (ih.cons y).trans (.swap x y rest)

/-- An item that can be told apart from all others finds its place among them. -/
theorem pairwise_insertBy
    (htrans : ∀ a b c, before a b = true → before b c = true → before a c = true)
    (hx : ∀ y ∈ ys, before x y = true ∨ before y x = true)
    (h : ys.Pairwise (before · · = true)) : (insertBy before x ys).Pairwise (before · · = true) := by
  induction ys with
  | nil => exact List.pairwise_singleton _ _
  | cons y rest ih =>
    obtain ⟨hy, hrest⟩ := List.pairwise_cons.mp h
    unfold insertBy
    split
    · next hxy =>
      refine List.pairwise_cons.mpr ⟨?_, h⟩
      intro z hz
      obtain rfl | hz := List.mem_cons.mp hz
      · exact hxy
      · exact htrans x y z hxy (hy z hz)
    · next hxy =>
      refine List.pairwise_cons.mpr ⟨?_, ih (fun z hz => hx z (List.mem_cons_of_mem y hz)) hrest⟩
      intro z hz
      obtain rfl | hz := List.mem_cons.mp ((perm_insertBy before x rest).mem_iff.mp hz)
      · exact (hx y List.mem_cons_self).resolve_left hxy
      · exact hy z hz

theorem perm_sortBy (before : α → α → Bool) (xs : List α) : (sortBy before xs).Perm xs := by
  suffices hfold : ∀ done : List α,
      (xs.foldl (fun sorted x => insertBy before x sorted) done).Perm (done ++ xs) from
    hfold []
  induction xs with
  | nil => simp
  | cons x rest ih =>
    intro done
    refine (ih _).trans (((perm_insertBy before x done).append_right rest).trans ?_)
    exact List.perm_middle.symm

/-- Items of which each two can be told apart are put in order. -/
theorem pairwise_sortBy
    (htrans : ∀ a b c, before a b = true → before b c = true → before a c = true)
    (h : xs.Pairwise fun x y => before x y = true ∨ before y x = true) :
    (sortBy before xs).Pairwise (before · · = true) := by
  suffices hfold : ∀ done : List α, done.Pairwise (before · · = true) →
      (∀ x ∈ xs, ∀ y ∈ done, before x y = true ∨ before y x = true) →
        (xs.foldl (fun sorted x => insertBy before x sorted) done).Pairwise (before · · = true) from
    hfold [] .nil (by simp)
  induction xs with
  | nil => exact fun _ hdone _ => hdone
  | cons x rest ih =>
    obtain ⟨hx, hrest⟩ := List.pairwise_cons.mp h
    intro done hdone happart
    refine ih hrest _ (pairwise_insertBy htrans (happart x List.mem_cons_self) hdone) ?_
    intro z hz y hy
    obtain rfl | hy := List.mem_cons.mp ((perm_insertBy before x done).mem_iff.mp hy)
    · exact (hx z hz).symm
    · exact happart z (List.mem_cons_of_mem x hz) y hy

/-- Items that have different keys are put in the order of their keys. -/
theorem pairwise_keys_sortBy {κ : Type} {key : α → κ} {R : κ → κ → Prop}
    (hbefore : ∀ x y, before x y = true ↔ R (key x) (key y))
    (htrans : ∀ a b c, R a b → R b c → R a c) (htotal : ∀ a b, a ≠ b → R a b ∨ R b a)
    (h : (xs.map key).Nodup) : ((sortBy before xs).map key).Pairwise R := by
  have happart : xs.Pairwise fun x y => before x y = true ∨ before y x = true := by
    simp only [hbefore]
    exact (List.pairwise_map.mp h).imp (htotal _ _)
  have hsorted : (sortBy before xs).Pairwise (before · · = true) := by
    refine pairwise_sortBy (fun a b c => ?_) happart
    simp only [hbefore]
    exact htrans _ _ _
  rw [List.pairwise_map]
  exact hsorted.imp (hbefore _ _).mp

end

end CeilingGate.Text
