import Mathlib.Data.List.Forall2

/-! Work that ends in a result or a failure, taken apart. -/
namespace CeilingGate

variable {ε α β γ κ : Type}

theorem bind_eq_ok {x : Except ε α} {f : α → Except ε β} {b : β} :
    x >>= f = .ok b ↔ ∃ a, x = .ok a ∧ f a = .ok b := by
  cases x with
  | error e => simp [bind, Except.bind]
  | ok a => simp [bind, Except.bind]

theorem map_eq_ok {x : Except ε α} {f : α → β} {b : β} :
    x.map f = .ok b ↔ ∃ a, x = .ok a ∧ f a = b := by
  cases x with
  | error e => simp [Except.map]
  | ok a => simp [Except.map]

theorem mapError_eq_ok {x : Except ε α} {f : ε → κ} {a : α} :
    x.mapError f = .ok a ↔ x = .ok a := by
  constructor
  · intro h
    cases x <;> cases h
    rfl
  · rintro rfl
    rfl

theorem mapM_eq_ok {f : α → Except ε β} {xs : List α} {ys : List β} :
    xs.mapM f = .ok ys ↔ List.Forall₂ (fun x y => f x = .ok y) xs ys := by
  induction xs generalizing ys with
  | nil => simp [pure, Except.pure, eq_comm]
  | cons x rest ih =>
    rw [List.mapM_cons, bind_eq_ok, List.forall₂_cons_left_iff]
    constructor
    · rintro ⟨y, hy, h⟩
      obtain ⟨others, hothers, h⟩ := bind_eq_ok.mp h
      cases h
      exact ⟨y, others, hy, ih.mp hothers, rfl⟩
    · rintro ⟨y, others, hy, hothers, rfl⟩
      exact ⟨y, hy, bind_eq_ok.mpr ⟨others, ih.mpr hothers, rfl⟩⟩

/-- Looking up comes to the same in entries that are related under the same keys. -/
theorem lookup_of_forall₂ [BEq κ] [LawfulBEq κ] {R : κ → α → β → Prop} {entries : List (κ × α)}
    {done : List (κ × β)} (h : List.Forall₂ (fun e e' => e'.1 = e.1 ∧ R e.1 e.2 e'.2) entries done)
    (k : κ) :
    match entries.lookup k with
    | some a => ∃ b, R k a b ∧ done.lookup k = some b
    | none => done.lookup k = none := by
  induction h with
  | nil => rfl
  | @cons e e' _ _ he _ ih =>
    obtain ⟨key, a⟩ := e
    obtain ⟨key', b⟩ := e'
    obtain ⟨rfl, hab⟩ := he
    by_cases hk : k == key'
    · obtain rfl := eq_of_beq hk
      simp only [List.lookup_cons, BEq.rfl]
      exact ⟨b, hab, rfl⟩
    · simp only [List.lookup_cons, hk]
      exact ih

/-- Entries worked through one by one keep their keys, so that looking up comes to the same before and
after. -/
theorem lookup_of_mapM [BEq κ] [LawfulBEq κ] {f : κ → α → Except ε β} {entries : List (κ × α)}
    {done : List (κ × β)}
    (h : (entries.mapM fun (k, a) => do
      let b ← f k a
      return (k, b)) = .ok done) (k : κ) :
    match entries.lookup k with
    | some a => ∃ b, f k a = .ok b ∧ done.lookup k = some b
    | none => done.lookup k = none := by
  refine lookup_of_forall₂ (R := fun k a b => f k a = .ok b) ((mapM_eq_ok.mp h).imp ?_) k
  rintro ⟨key, a⟩ e he
  obtain ⟨b, hb, he⟩ := bind_eq_ok.mp he
  cases he
  exact ⟨rfl, hb⟩

theorem bind_ne_error {x : Except ε α} {f : α → Except ε β} {e : ε}
    (hx : x ≠ .error e) (hf : ∀ v, f v ≠ .error e) : x >>= f ≠ .error e := by
  cases x with
  | ok v => exact hf v
  | error e' =>
    intro h
    cases h
    exact hx rfl

theorem mapM_ne_error {f : α → Except ε β} {xs : List α} {e : ε}
    (h : ∀ x ∈ xs, f x ≠ .error e) : xs.mapM f ≠ .error e := by
  induction xs with
  | nil =>
    intro he
    cases he
  | cons x xs ih =>
    rw [List.mapM_cons]
    refine bind_ne_error (h x (by simp)) fun y => ?_
    refine bind_ne_error (ih fun x hx => h x (by simp [hx])) fun ys => ?_
    intro he
    cases he

/-- What holds of each result holds of all results of a list that is worked through. -/
theorem forall_of_mapM {f : α → Except ε β} {P : β → Prop} {xs : List α} {ys : List β}
    (h : xs.mapM f = .ok ys) (hf : ∀ x y, f x = .ok y → P y) : ∀ y ∈ ys, P y := by
  have hall := mapM_eq_ok.mp h
  clear h
  induction hall with
  | nil => simp
  | cons hxy _ ih => exact List.forall_mem_cons.mpr ⟨hf _ _ hxy, ih⟩

/-- The failure in which work ends, unless it has a result. -/
def failure? : Except ε α → Option ε
  | .ok _ => none
  | .error e => some e

/-- Entries worked through one by one keep their keys. -/
theorem keys_of_mapM {f : κ → α → Except ε β} {entries : List (κ × α)} {done : List (κ × β)}
    (h : (entries.mapM fun (k, a) => do
      let b ← f k a
      return (k, b)) = .ok done) : done.map (·.1) = entries.map (·.1) := by
  have hall := mapM_eq_ok.mp h
  clear h
  induction hall with
  | nil => rfl
  | cons he _ ih =>
    obtain ⟨b, _, he⟩ := bind_eq_ok.mp he
    cases he
    simp [ih]

end CeilingGate
