import CeilingGate.Value.Text

/-! When a value is nested too deep to be shown. -/
namespace CeilingGate.Value

variable {v w : Value} {vs : List Value} {calls : Nat}

/-- What a collection is shown by, in order: its items, or the keys and contents of its entries. -/
def parts : Value → List Value
  | .list items | .tuple items | .set items => items
  | .dict entries => entries.flatMap fun e => [e.1, e.2]
  | _ => []

/-- Inside as many collections as there are calls stands one more with content. Whatever is shown before it has
a text. -/
inductive NestsTooDeep : Nat → Value → Prop
  | here {v : Value} (h : parts v ≠ []) : NestsTooDeep 0 v
  | inside {v w : Value} {calls : Nat} {before after : List Value}
      (h : parts v = before ++ w :: after) (hb : ∀ u ∈ before, unshown? calls u = none)
      (hw : NestsTooDeep calls w) : NestsTooDeep (calls + 1) v

theorem unshownItem?_zero (h : vs ≠ []) : unshownItem? 0 vs = some .tooDeep := by
  cases vs with
  | nil => exact absurd rfl h
  | cons v rest => rfl

theorem unshownItem?_succ :
    unshownItem? (calls + 1) vs = vs.findSome? (unshown? calls) := by
  induction vs with
  | nil => rfl
  | cons v rest ih =>
    rw [unshownItem?, if_neg (by omega), ih, List.findSome?_cons, Nat.add_sub_cancel]
    cases unshown? calls v <;> rfl

/-- Entries are shown as their keys and contents are. -/
theorem unshownPair?_eq (calls : Nat) (entries : List (Value × Value)) :
    unshownPair? calls entries = unshownItem? calls (entries.flatMap fun e => [e.1, e.2]) := by
  induction entries with
  | nil => rfl
  | cons e rest ih =>
    obtain ⟨k, v⟩ := e
    rw [List.flatMap_cons, List.cons_append, List.cons_append, List.nil_append, unshownPair?,
      unshownItem?, unshownItem?, ih]
    split
    · rfl
    · rw [Option.or_assoc]

/-- A value that is no collection has a text, or is a number of too many digits. -/
theorem unshown?_of_parts_eq_nil (h : parts v = []) : unshown? calls v ≠ some .tooDeep := by
  cases v with
  | int i =>
    unfold unshown?
    split <;> simp
  | list items | tuple items | set items =>
    obtain rfl : items = [] := h
    simp [unshown?, unshownItem?]
  | dict entries =>
    cases entries with
    | nil => simp [unshown?, unshownPair?]
    | cons e rest => simp [parts] at h
  | _ => simp [unshown?]

theorem unshown?_of_parts_ne_nil (h : parts v ≠ []) :
    unshown? calls v = unshownItem? calls (parts v) := by
  cases v with
  | list | tuple | set => rfl
  | dict entries => exact unshownPair?_eq calls entries
  | _ => exact absurd rfl h

theorem unshown?_eq_tooDeep_iff : unshown? calls v = some .tooDeep ↔ NestsTooDeep calls v := by
  induction calls generalizing v with
  | zero =>
    constructor
    · intro h
      exact .here fun hn => unshown?_of_parts_eq_nil hn h
    · rintro ⟨hn⟩
      rw [unshown?_of_parts_ne_nil hn, unshownItem?_zero hn]
  | succ calls ih =>
    constructor
    · intro h
      have hn : parts v ≠ [] := fun hn => unshown?_of_parts_eq_nil hn h
      rw [unshown?_of_parts_ne_nil hn, unshownItem?_succ, List.findSome?_eq_some_iff] at h
      obtain ⟨before, w, after, hparts, hw, hb⟩ := h
      exact .inside hparts hb (ih.mp hw)
    · intro h
      cases h with
      | inside hparts hb hw =>
        rw [unshown?_of_parts_ne_nil (by simp [hparts]), unshownItem?_succ,
          List.findSome?_eq_some_iff]
        exact ⟨_, _, _, hparts, ih.mpr hw, hb⟩

end CeilingGate.Value
