import CeilingGate.Proofs.Yaml.Compare

/-! Building with more calls. One more call changes nothing but what was cut short. -/
namespace CeilingGate.Yaml

namespace Builder

variable {frames : Nat} {b : Builder} {id : NodeId} {deep : Bool}

theorem scalarText_upto (g : Graph) (frames : Nat) (id : NodeId) :
    Upto (scalarText g frames id) (scalarText g (frames + 1) id) := by
  induction frames generalizing id with
  | zero => exact upto_cutShort _
  | succ frames ih =>
    rw [scalarText, scalarText]
    split
    · exact upto_refl _
    · exact upto_refl _
    · split
      · exact ih _
      · exact upto_refl _
    · exact upto_refl _

theorem scalarValue_upto (g : Graph) (frames : Nat) (tag : String)
    (read : List Char → Except Failure Value) (id : NodeId) :
    Upto (scalarValue g frames tag read id) (scalarValue g (frames + 1) tag read id) :=
  (scalarText_upto g frames id).bind fun _ => upto_refl _

/-- One more call changes only what was cut short. -/
structure Extends (frames : Nat) : Prop where
  build : ∀ deep b id, Upto (build deep frames b id) (build deep (frames + 1) b id)
  fill : ∀ deep b id, Upto (fill deep frames b id) (fill deep (frames + 1) b id)
  sequence : ∀ deep b items, Upto (sequence deep frames b items) (sequence deep (frames + 1) b items)
  mapping : ∀ deep b id, Upto (mapping deep frames b id) (mapping deep (frames + 1) b id)

theorem extends_zero : Extends 0 where
  build := fun _ _ _ => upto_cutShort _
  fill := fun _ _ _ => upto_cutShort _
  sequence := fun _ _ _ => upto_cutShort _
  mapping := fun _ _ _ => upto_cutShort _

theorem build_upto (h : Extends frames) (deep : Bool) (b : Builder) (id : NodeId) :
    Upto (Builder.build deep (frames + 1) b id) (Builder.build deep (frames + 2) b id) := by
  rw [Builder.build, Builder.build]
  split
  · exact upto_refl _
  · split
    · exact upto_refl _
    · dsimp only
      split
      · exact (scalarValue_upto _ frames _ _ id).bind fun _ => upto_refl _
      · split
        · split
          · exact (h.fill true _ id).bind fun _ => upto_refl _
          · exact upto_refl _
        · exact upto_refl _

theorem addPair_upto (h : Extends frames) (acc : Builder × List (NodeId × NodeId))
    (item : NodeId) :
    Upto (addPair (fun b id => Builder.build deep frames b id) acc item)
      (addPair (fun b id => Builder.build deep (frames + 1) b id) acc item) := by
  obtain ⟨b, done⟩ := acc
  rw [addPair, addPair]
  split
  · refine (h.build deep b _).bind fun b => ?_
    exact (h.build deep b _).bind fun _ => upto_refl _
  · exact upto_refl _
  · exact upto_refl _

theorem fill_upto (h : Extends frames) (deep : Bool) (b : Builder) (id : NodeId) :
    Upto (Builder.fill deep (frames + 1) b id) (Builder.fill deep (frames + 2) b id) := by
  rw [Builder.fill, Builder.fill]
  dsimp only
  split
  · split
    · exact (h.sequence deep b _).bind fun _ => upto_refl _
    · exact upto_refl _
  · split
    · exact (h.mapping deep b id).bind fun _ => upto_refl _
    · split
      · exact (h.mapping deep b id).bind fun _ => upto_refl _
      · split
        · exact (Upto.foldlM (addPair_upto h) _ _).bind fun _ => upto_refl _
        · exact upto_refl _

theorem keyValue_upto (h : Extends frames) (b : Builder) (key : NodeId) :
    Upto
      (keyValue frames (fun b id => Builder.mapping true frames b id)
        (fun b id => Builder.build deep frames b id) b key)
      (keyValue (frames + 1) (fun b id => Builder.mapping true (frames + 1) b id)
        (fun b id => Builder.build deep (frames + 1) b id) b key) := by
  unfold keyValue
  split
  · exact (h.mapping true b key).bind fun r => (frozenKey_upto r.1 frames r.2).bind fun _ => upto_refl _
  · exact (h.build deep b key).bind fun _ => upto_refl _

theorem mapping_upto (h : Extends frames) (deep : Bool) (b : Builder) (id : NodeId) :
    Upto (Builder.mapping deep (frames + 1) b id) (Builder.mapping deep (frames + 2) b id) := by
  rw [Builder.mapping, Builder.mapping]
  split
  · refine (b.graph.flatten_upto frames id).bind fun g => Upto.foldlM ?_ _ _
    rintro ⟨b, done⟩ ⟨key, content⟩
    rw [addEntry, addEntry]
    refine (keyValue_upto h b key).bind ?_
    rintro ⟨b, k⟩
    dsimp only
    split
    · exact upto_refl _
    · exact (h.build deep b content).bind fun _ => upto_refl _
  · exact upto_refl _

theorem extends_all (frames : Nat) : Extends frames := by
  induction frames using Nat.strongRecOn with
  | ind frames ih =>
    cases frames with
    | zero => exact extends_zero
    | succ frames =>
      have h := ih frames (by omega)
      refine ⟨build_upto h, fill_upto h, ?_, mapping_upto h⟩
      intro deep b items
      cases frames with
      | zero => exact upto_cutShort _
      | succ frames =>
        rw [Builder.sequence, Builder.sequence]
        exact Upto.foldlM (fun b item => (ih frames (by omega)).build deep b item) items b

/-- More calls change only what was cut short. -/
theorem mapping_upto_of_le {n m : Nat} (h : n ≤ m) (deep : Bool) (b : Builder) (id : NodeId) :
    Upto (Builder.mapping deep n b id) (Builder.mapping deep m b id) := by
  obtain ⟨k, rfl⟩ := Nat.exists_eq_add_of_le h
  induction k with
  | zero => exact upto_refl _
  | succ k ih => exact (ih (by omega)).trans ((extends_all (n + k)).mapping deep b id)

end Builder

end CeilingGate.Yaml
