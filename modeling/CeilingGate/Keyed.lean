/-! Entries under keys, in the order in which their keys first came. -/
namespace CeilingGate.Keyed

variable {κ α : Type} [BEq κ]

/-- Puts in an entry; of two under one key the last counts, in the place of the first. -/
def insert (entries : List (κ × α)) (key : κ) (a : α) : List (κ × α) :=
  match entries with
  | [] => [(key, a)]
  | (k, b) :: rest => if k == key then (k, a) :: rest else (k, b) :: insert rest key a

def insertAll (entries more : List (κ × α)) : List (κ × α) :=
  more.foldl (fun done (k, a) => insert done k a) entries

def ofList (entries : List (κ × α)) : List (κ × α) := insertAll [] entries

section

variable [LawfulBEq κ] {entries more : List (κ × α)} {key k : κ} {a : α}

theorem mem_keys_insert :
    k ∈ (insert entries key a).map (·.1) ↔ k = key ∨ k ∈ entries.map (·.1) := by
  induction entries with
  | nil => simp [insert]
  | cons e rest ih =>
    obtain ⟨k', b⟩ := e
    unfold insert
    by_cases hk : k' = key
    · simp [hk]
    · simp only [beq_iff_eq, hk, if_false, List.map_cons, List.mem_cons, ih, or_left_comm]

theorem nodup_keys_insert (h : (entries.map (·.1)).Nodup) :
    ((insert entries key a).map (·.1)).Nodup := by
  induction entries with
  | nil => simp [insert]
  | cons e rest ih =>
    obtain ⟨k', b⟩ := e
    obtain ⟨hnew, hrest⟩ := List.nodup_cons.mp h
    unfold insert
    by_cases hk : k' = key
    · simpa [hk] using h
    · simp only [beq_iff_eq, hk, if_false, List.map_cons, List.nodup_cons, mem_keys_insert]
      exact ⟨by simpa [hk] using hnew, ih hrest⟩

theorem mem_keys_insertAll :
    k ∈ (insertAll entries more).map (·.1) ↔ k ∈ entries.map (·.1) ∨ k ∈ more.map (·.1) := by
  induction more generalizing entries with
  | nil => simp [insertAll]
  | cons e rest ih =>
    obtain ⟨k', b⟩ := e
    have hstep : insertAll entries ((k', b) :: rest) = insertAll (insert entries k' b) rest := rfl
    rw [hstep, ih, mem_keys_insert]
    simp only [List.map_cons, List.mem_cons, or_left_comm, or_assoc]

theorem nodup_keys_insertAll (h : (entries.map (·.1)).Nodup) :
    ((insertAll entries more).map (·.1)).Nodup := by
  induction more generalizing entries with
  | nil => exact h
  | cons e rest ih => exact ih (nodup_keys_insert h)

theorem mem_keys_ofList : k ∈ (ofList entries).map (·.1) ↔ k ∈ entries.map (·.1) := by
  simp [ofList, mem_keys_insertAll]

theorem nodup_keys_ofList (entries : List (κ × α)) : ((ofList entries).map (·.1)).Nodup :=
  nodup_keys_insertAll List.nodup_nil

end

end CeilingGate.Keyed
