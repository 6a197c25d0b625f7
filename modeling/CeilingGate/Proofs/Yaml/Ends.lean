import CeilingGate.Yaml.Basic

/-! How the steps of a reading end: in a value, in an abort, or in a failure that is told to the
author of the text. -/
namespace CeilingGate.Yaml

variable {α β σ : Type} {P P' : Abort → Prop} {Q Q' : α → Prop} {R : β → Prop}

/-- A step ends in a value with `Q`, in an abort with `P`, or in another failure. -/
def Ends (P : Abort → Prop) (Q : α → Prop) : Except Failure α → Prop
  | .ok v => Q v
  | .error (.abort a) => P a
  | .error _ => True

@[simp] theorem ends_ok {v : α} : Ends P Q (.ok v) ↔ Q v := Iff.rfl

@[simp] theorem ends_pure {v : α} : Ends P Q (pure v) ↔ Q v := Iff.rfl

@[simp] theorem ends_abort {a : Abort} : Ends P Q (.error (.abort a)) ↔ P a := Iff.rfl

@[simp] theorem ends_malformed : Ends P Q (.error .malformed) := trivial

@[simp] theorem ends_badValue : Ends P Q (.error .badValue) := trivial

@[simp] theorem ends_badType : Ends P Q (.error .badType) := trivial

@[simp] theorem ends_construction {problem : String} :
    Ends P Q (.error (.construction problem)) := trivial

@[simp] theorem ends_throw {f : Failure} : Ends P Q (throw f) ↔ Ends P Q (.error f) := Iff.rfl

theorem ends_iff {x : Except Failure α} :
    Ends P Q x ↔ (∀ v, x = .ok v → Q v) ∧ ∀ a, x = .error (.abort a) → P a := by
  cases x with
  | ok v => simp
  | error f => cases f <;> simp

/-- A step has `Q` of its value if it ends in one. -/
abbrev Gives (Q : α → Prop) (x : Except Failure α) : Prop := Ends (fun _ => True) Q x

theorem gives_iff {x : Except Failure α} : Gives Q x ↔ ∀ v, x = .ok v → Q v := by
  simp [ends_iff]

theorem Ends.mono {x : Except Failure α} (h : Ends P Q x) (hp : ∀ a, P a → P' a)
    (hq : ∀ v, Q v → Q' v) : Ends P' Q' x := by
  rw [ends_iff] at h ⊢
  exact ⟨fun v hv => hq v (h.1 v hv), fun a ha => hp a (h.2 a ha)⟩

theorem Ends.gives {x : Except Failure α} (h : Ends P Q x) : Gives Q x :=
  h.mono (fun _ _ => trivial) fun _ h => h

theorem Ends.bind {x : Except Failure α} {f : α → Except Failure β} (h : Ends P Q x)
    (hf : ∀ v, Q v → Ends P R (f v)) : Ends P R (x >>= f) := by
  cases x with
  | ok v => exact hf v h
  | error e => cases e <;> exact h

theorem Ends.ite {c : Prop} [Decidable c] {x y : Except Failure α} (hx : c → Ends P Q x)
    (hy : ¬ c → Ends P Q y) : Ends P Q (if c then x else y) := by
  split
  · next hc => exact hx hc
  · next hc => exact hy hc

theorem Ends.foldlM {f : σ → α → Except Failure σ} {xs : List α} {S : σ → Prop} {s : σ}
    (hs : S s) (h : ∀ s, S s → ∀ x ∈ xs, Ends P S (f s x)) : Ends P S (xs.foldlM f s) := by
  induction xs generalizing s with
  | nil => exact hs
  | cons x xs ih =>
    rw [List.foldlM_cons]
    refine (h s hs x (by simp)).bind ?_
    intro s' hs'
    exact ih hs' fun s hs x hx => h s hs x (by simp [hx])

/-- A fold described by the elements that it has taken in. -/
theorem Ends.foldlM_taken {f : σ → α → Except Failure σ} {xs done : List α} {S : List α → σ → Prop}
    {s : σ} (hs : S done s)
    (h : ∀ done s, S done s → ∀ x ∈ xs, Ends P (S (done ++ [x])) (f s x)) :
    Ends P (S (done ++ xs)) (xs.foldlM f s) := by
  induction xs generalizing done s with
  | nil => simpa using hs
  | cons x xs ih =>
    rw [List.foldlM_cons]
    refine (h done s hs x (by simp)).bind ?_
    intro s' hs'
    have hrest := ih hs' fun done s hs x hx => h done s hs x (by simp [hx])
    rwa [List.append_assoc, List.singleton_append] at hrest

theorem Ends.mapM {f : α → Except Failure β} {xs : List α} (h : ∀ x ∈ xs, Ends P R (f x)) :
    Ends P (fun ys => ∀ y ∈ ys, R y) (xs.mapM f) := by
  induction xs with
  | nil => simp
  | cons x xs ih =>
    rw [List.mapM_cons]
    refine (h x (by simp)).bind ?_
    intro y hy
    refine (ih fun x hx => h x (by simp [hx])).bind ?_
    intro ys hys z hz
    rcases List.mem_cons.mp hz with rfl | hz
    · exact hy
    · exact hys z hz

end CeilingGate.Yaml
