import CeilingGate.Proofs.Outcome
import CeilingGate.Validation.Field
import Mathlib.Data.List.Forall2
import Mathlib.Data.List.Induction

/-! Typed data that has been read out of dynamic values: where each part of a result comes from. -/
namespace CeilingGate

namespace Keyed

variable {κ α : Type} [BEq κ]

theorem ofList_concat (entries : List (κ × α)) (key : κ) (a : α) :
    ofList (entries ++ [(key, a)]) = insert (ofList entries) key a := by
  simp [ofList, insertAll, List.foldl_append]

theorem insert_map (f : α → α) (entries : List (κ × α)) (key : κ) (a : α) :
    insert (entries.map fun e => (e.1, f e.2)) key (f a) =
      (insert entries key a).map fun e => (e.1, f e.2) := by
  induction entries with
  | nil => rfl
  | cons first rest ih =>
    simp only [List.map_cons, insert]
    split
    · rfl
    · rw [ih, List.map_cons]

theorem ofList_map (f : α → α) (entries : List (κ × α)) :
    ofList (entries.map fun e => (e.1, f e.2)) = (ofList entries).map fun e => (e.1, f e.2) := by
  induction entries using List.reverseRecOn with
  | nil => rfl
  | append_singleton entries e ih =>
    rw [List.map_append, List.map_singleton, ofList_concat, ofList_concat, ih, insert_map]

variable [LawfulBEq κ]

theorem lookup_insert (entries : List (κ × α)) (key k : κ) (a : α) :
    (insert entries key a).lookup k = if k == key then some a else entries.lookup k := by
  induction entries with
  | nil => cases h : k == key <;> simp [insert, List.lookup_cons, h]
  | cons e rest ih =>
    obtain ⟨k', b⟩ := e
    unfold insert
    by_cases hkey : k' = key
    · subst hkey
      cases h : k == k' <;> simp [List.lookup_cons, h]
    · simp only [beq_iff_eq, hkey, if_false, List.lookup_cons, ih]
      cases h : k == k' with
      | true =>
        have hne : (k == key) = false := by simpa [eq_of_beq h] using hkey
        simp [hne]
      | false => rfl

/-- Of several entries under one key the last counts. -/
theorem lookup_ofList (entries : List (κ × α)) (k : κ) :
    (ofList entries).lookup k = entries.reverse.lookup k := by
  induction entries using List.reverseRecOn with
  | nil => rfl
  | append_singleton entries e ih =>
    obtain ⟨key, a⟩ := e
    rw [ofList_concat, lookup_insert, ih, List.reverse_append]
    cases h : k == key <;> simp [List.lookup_cons, h]

end Keyed

namespace Validation

variable {α β : Type} {f : α → β} {c : Checked α} {cs : List (Checked α)} {xs : List α}
  {read : Value → Checked α} {v : Value} {entries : Entries} {names : List String} {absent a : α}

theorem apply_eq_ok {f : Checked (α → β)} {b : β} :
    f.apply c = .ok b ↔ ∃ g x, f = .ok g ∧ c = .ok x ∧ g x = b := by
  cases f <;> cases c <;> simp [Checked.apply]

theorem checked_map_eq_ok {b : β} : c.map f = .ok b ↔ ∃ x, c = .ok x ∧ f x = b := map_eq_ok

theorem under_eq_ok {step : Step} {x : α} : c.under step = .ok x ↔ c = .ok x := mapError_eq_ok

theorem all_eq_ok : Checked.all cs = .ok xs ↔ List.Forall₂ (fun c x => c = .ok x) cs xs := by
  induction cs generalizing xs with
  | nil => simp [Checked.all, eq_comm]
  | cons c rest ih =>
    simp only [Checked.all, apply_eq_ok, checked_map_eq_ok, ih, List.forall₂_cons_left_iff]
    constructor
    · rintro ⟨_, others, ⟨x, hc, rfl⟩, hrest, rfl⟩
      exact ⟨x, others, hc, hrest, rfl⟩
    · rintro ⟨x, others, hc, hrest, rfl⟩
      exact ⟨_, others, ⟨x, hc, rfl⟩, hrest, rfl⟩

/-- Entries that have all been read keep what they are known by. -/
theorem keys_of_all {κ : Type} {key : α → κ} {read : α → Checked (κ × β)} {parts : List α}
    {done : List (κ × β)} (hkey : ∀ x y, read x = .ok y → y.1 = key x)
    (h : Checked.all (parts.map read) = .ok done) : done.map (·.1) = parts.map key := by
  rw [all_eq_ok, List.forall₂_map_left_iff] at h
  induction h with
  | nil => rfl
  | cons hx _ ih => rw [List.map_cons, List.map_cons, ih, hkey _ _ hx]

theorem field_eq_ok (h : field entries names absent read = .ok a) :
    (named? entries names = none ∧ a = absent) ∨
      ∃ n v, named? entries names = some (n, v) ∧ read v = .ok a := by
  unfold field at h
  split at h
  · next n v hn => exact Or.inr ⟨n, v, hn, under_eq_ok.mp h⟩
  · next hn =>
    cases h
    exact Or.inl ⟨hn, rfl⟩

theorem readListFrom_eq_ok {position : Nat} {vs : List Value}
    (h : readListFrom read position vs = .ok xs) : List.Forall₂ (fun v x => read v = .ok x) vs xs := by
  induction vs generalizing position xs with
  | nil =>
    cases h
    exact .nil
  | cons v rest ih =>
    obtain ⟨_, others, hfirst, hothers, rfl⟩ := apply_eq_ok.mp h
    obtain ⟨x, hx, rfl⟩ := checked_map_eq_ok.mp hfirst
    exact .cons (under_eq_ok.mp hx) (ih hothers)

theorem readEntry_eq_ok {e : Value × Value} {y : RawText × α} (h : readEntry read e = .ok y) :
    readText e.1 = .ok y.1 ∧ read e.2 = .ok y.2 := by
  obtain ⟨pair, x, hpair, hx, rfl⟩ := apply_eq_ok.mp (under_eq_ok.mp h)
  obtain ⟨name, hname, rfl⟩ := checked_map_eq_ok.mp hpair
  exact ⟨under_eq_ok.mp hname, hx⟩

@[simp] theorem readText_toValue (t : RawText) : readText t.toValue = .ok t := by
  cases t with
  | plain s => rfl
  | broken b => exact congrArg Except.ok (RawText.ofCodes_codes (.broken b))

/-- What a mapping holds under the keys that spell a name. Of several such keys the last counts. -/
def spelled? (name : RawText) (entries : Entries) : Option Value :=
  (entries.reverse.find? fun e => (readText e.1).toOption == some name).map (·.2)

/-- What is found in a mapping that was read is what was read under the name. -/
theorem lookup_readMapping {done : List (RawText × α)}
    (h : readMapping read (.dict entries) = .ok done) (name : RawText) :
    done.lookup name = (spelled? name entries).bind fun v => (read v).toOption := by
  obtain ⟨read', hread, rfl⟩ := checked_map_eq_ok.mp h
  clear h
  rw [all_eq_ok, List.forall₂_map_left_iff] at hread
  rw [Keyed.lookup_ofList, spelled?]
  have hrows := List.forall₂_reverse_iff.mpr hread
  generalize entries.reverse = parts, read'.reverse = rows at hrows
  induction hrows with
  | nil => rfl
  | @cons e y _ _ hy _ ih =>
    obtain ⟨hkey, hcontent⟩ := readEntry_eq_ok hy
    obtain ⟨key, x⟩ := y
    by_cases hk : key = name
    · subst hk
      simp [hkey, hcontent, Except.toOption]
    · have hne : (name == key) = false := by simpa using fun he => hk he.symm
      simpa [List.lookup_cons, hkey, hk, hne, Except.toOption] using ih

/-! ## Aborts -/

/-- The abort that ends a reading: the first one among the issues. -/
def abort? : Checked α → Option Abort
  | .ok _ => none
  | .error issues => firstAbort? issues

theorem abort?_map : abort? (c.map f) = abort? c := by
  cases c <;> rfl

theorem abort?_apply (f : Checked (α → β)) (c : Checked α) :
    abort? (f.apply c) = (abort? f).or (abort? c) := by
  cases f <;> cases c <;> simp [Checked.apply, abort?, firstAbort?, List.findSome?_append]

theorem abort?_under (step : Step) (c : Checked α) : abort? (c.under step) = abort? c := by
  cases c with
  | ok a => rfl
  | error issues =>
    simp only [Checked.under, Except.mapError, abort?, firstAbort?, List.findSome?_map]
    rfl

theorem abort?_fail (cause : Cause) : abort? (.fail cause : Checked α) = cause.abort? := by
  simp [Checked.fail, abort?, firstAbort?]

theorem abort?_all : abort? (Checked.all cs) = cs.findSome? abort? := by
  induction cs with
  | nil => rfl
  | cons c rest ih =>
    rw [Checked.all, abort?_apply, abort?_map, ih, List.findSome?_cons]
    cases abort? c <;> rfl

theorem abort?_field :
    abort? (field entries names absent read) =
      (named? entries names).bind fun e => abort? (read e.2) := by
  unfold field
  cases named? entries names with
  | none => rfl
  | some e => exact abort?_under _ _

theorem abort?_readText (v : Value) : abort? (readText v) = none := by
  cases v with
  | bytes bs =>
    simp only [readText]
    split <;> rfl
  | text | brokenText => rfl
  | _ => exact abort?_fail _

theorem abort?_readListFrom {position : Nat} {vs : List Value} :
    abort? (readListFrom read position vs) = vs.findSome? fun v => abort? (read v) := by
  induction vs generalizing position with
  | nil => rfl
  | cons v rest ih =>
    rw [readListFrom, abort?_apply, abort?_map, abort?_under, ih, List.findSome?_cons]
    cases abort? (read v) <;> rfl

theorem abort?_readEntry (e : Value × Value) : abort? (readEntry read e) = abort? (read e.2) := by
  rw [readEntry, abort?_under, abort?_apply, abort?_map, abort?_under, abort?_readText]
  rfl

theorem abort?_readMapping (entries : Entries) :
    abort? (readMapping read (.dict entries)) = entries.findSome? fun e => abort? (read e.2) := by
  rw [readMapping, abort?_map, abort?_all, List.findSome?_map]
  simp only [Function.comp_def, abort?_readEntry]

theorem stopOf_eq_abort_iff {Fault : Type} {fault : List Issue → Fault} {issues : List Issue}
    {e : Abort} : stopOf fault issues = .abort e ↔ firstAbort? issues = some e := by
  unfold stopOf
  cases firstAbort? issues <;> simp

theorem stopOf_eq_fault {Fault : Type} {fault : List Issue → Fault} {issues : List Issue}
    (h : firstAbort? issues = none) : stopOf fault issues = .fault (fault issues) := by
  rw [stopOf, h]

end Validation

end CeilingGate
