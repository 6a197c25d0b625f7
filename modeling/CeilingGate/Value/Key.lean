import CeilingGate.Value.Basic

/-! Values as keys of mappings. Numbers of all kinds are the same key when their values are equal. -/
namespace CeilingGate

/-- The exact decimal that a double is. -/
def Binary64.toNumeral : Binary64 → Numeral
  | .finite negative m e =>
    if e ≥ 0 then .number ⟨negative, m * 2 ^ e.toNat, 0⟩
    else .number ⟨negative, m * 5 ^ (-e).toNat, e⟩
  | .infinite negative => .infinite negative
  | .nan => .undefined false false 0

namespace Value

/-- What a value counts as among numbers. -/
def toNumeral? : Value → Option Numeral
  | bool b => some (.number ⟨false, b.toNat, 0⟩)
  | int i => some (.number ⟨i < 0, i.natAbs, 0⟩)
  | float x => some x.toNumeral
  | decimal n => some n
  | _ => none

def sameNumber : Numeral → Numeral → Bool
  | .number a, .number b => a.eqv b
  | .infinite a, .infinite b => a == b
  | _, _ => false

def sameScalar (a b : Value) : Bool :=
  match a.toNumeral?, b.toNumeral? with
  | some m, some n => sameNumber m n
  | none, none =>
    match a, b with
    | null, null => true
    | text s, text t => s == t
    | brokenText s, brokenText t => s == t
    | bytes s, bytes t => s == t
    | date s, date t => s == t
    | moment s, moment t => s.eqv t
    | quantity s, quantity t => s.eqv t
    | target s, target t => s == t
    | _, _ => false
  | _, _ => false

mutual
/-- Whether two values are one key. -/
def sameKey : Value → Value → Bool
  | tuple xs, tuple ys => sameKeys xs ys
  | list xs, list ys => sameKeys xs ys
  | a, b => sameScalar a b

def sameKeys : List Value → List Value → Bool
  | [], [] => true
  | x :: xs, y :: ys => sameKey x y && sameKeys xs ys
  | _, _ => false
end

/-- Puts an entry into a mapping. A key that is there already keeps its place and its first spelling
and takes the new content. -/
def insertEntry {α : Type} (entries : List (Value × α)) (key : Value) (content : α) :
    List (Value × α) :=
  match entries with
  | [] => [(key, content)]
  | (k, c) :: rest =>
    if sameKey k key then (k, content) :: rest else (k, c) :: insertEntry rest key content

/-- A mapping from entries in the order they were written. -/
def ofEntries {α : Type} (entries : List (Value × α)) : List (Value × α) :=
  entries.foldl (fun done (k, c) => insertEntry done k c) []

section

variable {α : Type} {p : Value → Prop} {entries : List (Value × α)} {key : Value}

/-- An entry has a key that was there or the new one, and a content that was there or the new one. -/
theorem mem_insertEntry {content : α} {e : Value × α} (he : e ∈ insertEntry entries key content) :
    (e.1 = key ∨ ∃ f ∈ entries, f.1 = e.1) ∧ (e.2 = content ∨ ∃ f ∈ entries, f.2 = e.2) := by
  induction entries with
  | nil =>
    rw [List.mem_singleton.mp he]
    exact ⟨.inl rfl, .inl rfl⟩
  | cons first rest ih =>
    unfold insertEntry at he
    split at he
    · rcases List.mem_cons.mp he with rfl | he
      · exact ⟨.inr ⟨first, by simp, rfl⟩, .inl rfl⟩
      · exact ⟨.inr ⟨e, by simp [he], rfl⟩, .inr ⟨e, by simp [he], rfl⟩⟩
    · rcases List.mem_cons.mp he with rfl | he
      · exact ⟨.inr ⟨first, by simp, rfl⟩, .inr ⟨first, by simp, rfl⟩⟩
      · have hcons : ∀ {p : Value × α → Prop}, (∃ f ∈ rest, p f) → ∃ f ∈ first :: rest, p f :=
          fun ⟨f, hf, hp⟩ => ⟨f, by simp [hf], hp⟩
        exact ⟨(ih he).1.imp_right hcons, (ih he).2.imp_right hcons⟩

theorem forall_insertEntry (h : ∀ e ∈ entries, p e.1) (hk : p key) (content : α) :
    ∀ e ∈ insertEntry entries key content, p e.1 := by
  intro e he
  rcases (mem_insertEntry he).1 with heq | ⟨f, hf, heq⟩
  · rw [heq]
    exact hk
  · rw [← heq]
    exact h f hf

theorem forall_ofEntries (h : ∀ e ∈ entries, p e.1) : ∀ e ∈ ofEntries entries, p e.1 := by
  suffices hfold : ∀ done : List (Value × α), (∀ e ∈ done, p e.1) →
      ∀ e ∈ entries.foldl (fun done (k, c) => insertEntry done k c) done, p e.1 from
    hfold [] (by simp)
  induction entries with
  | nil => exact fun _ hdone => hdone
  | cons first rest ih =>
    intro done hdone
    exact ih (fun e he => h e (by simp [he])) _ (forall_insertEntry hdone (h first (by simp)) _)

end

/-- The content of a text key. -/
def find? (entries : List (Value × Value)) (key : String) : Option Value :=
  (entries.find? fun (k, _) => sameKey k (.text key)).map (·.2)

/-- Whether a number is below another; infinities lie at the ends, and nothing is below or above an
undefined number. -/
def numberBelow : Numeral → Numeral → Bool
  | .number a, .number b => a.lt b
  | .infinite s, .infinite t => s && !t
  | .infinite s, .number _ => s
  | .number _, .infinite t => !t
  | _, _ => false

def textBelow (s t : String) : Bool := decide (s < t)

def bytesBelow : List UInt8 → List UInt8 → Bool
  | [], [] => false
  | [], _ :: _ => true
  | _ :: _, [] => false
  | x :: xs, y :: ys => x < y || (x == y && bytesBelow xs ys)

mutual
/-- Whether a value comes before another; none for values that have no order. -/
def below? : Value → Value → Option Bool
  | text s, text t => some (textBelow s t)
  | text s, brokenText codes => some (decide ((RawText.plain s).codes < codes))
  | brokenText codes, text s => some (decide (codes < (RawText.plain s).codes))
  | brokenText codes, brokenText others => some (decide (codes < others))
  | bytes s, bytes t => some (bytesBelow s t)
  | date s, date t => some (s.lt t)
  | moment s, moment t => s.lt? t
  | quantity s, quantity t => some (s.lt t)
  | tuple xs, tuple ys => allBelow? xs ys
  | list xs, list ys => allBelow? xs ys
  | a, b =>
    match a.toNumeral?, b.toNumeral? with
    | some m, some n => some (numberBelow m n)
    | _, _ => none

/-- The first items that differ decide. -/
def allBelow? : List Value → List Value → Option Bool
  | [], [] => some false
  | [], _ :: _ => some true
  | _ :: _, [] => some false
  | x :: xs, y :: ys => if sameKey x y then allBelow? xs ys else below? x y
end

def insertSorted? (v : Value) : List Value → Option (List Value)
  | [] => some [v]
  | w :: rest => do
    if ← below? v w then some (v :: w :: rest)
    else
      let tail ← insertSorted? v rest
      some (w :: tail)

theorem forall_insertSorted? {p : Value → Prop} {v : Value} {vs ws : List Value} (hv : p v)
    (h : ∀ w ∈ vs, p w) (hs : insertSorted? v vs = some ws) : ∀ w ∈ ws, p w := by
  induction vs generalizing ws with
  | nil =>
    cases hs
    simpa using hv
  | cons first rest ih =>
    unfold insertSorted? at hs
    cases hb : below? v first with
    | none => simp [hb] at hs
    | some isBelow =>
      cases isBelow with
      | true =>
        simp only [hb, Option.bind_eq_bind, Option.bind_some, if_true, Option.some.injEq] at hs
        subst hs
        intro w hw
        rcases List.mem_cons.mp hw with rfl | hw
        · exact hv
        · exact h w hw
      | false =>
        simp only [hb, Option.bind_eq_bind, Option.bind_some, Bool.false_eq_true, if_false,
          Option.bind_eq_some_iff, Option.some.injEq] at hs
        obtain ⟨tail, htail, rfl⟩ := hs
        intro w hw
        rcases List.mem_cons.mp hw with rfl | hw
        · exact h _ (by simp)
        · exact ih (fun w hw => h w (by simp [hw])) htail w hw

theorem isSome_insertSorted? {v : Value} {vs : List Value} (h : ∀ w ∈ vs, (below? v w).isSome) :
    (insertSorted? v vs).isSome := by
  induction vs with
  | nil => rfl
  | cons first rest ih =>
    obtain ⟨isBelow, hb⟩ := Option.isSome_iff_exists.mp (h first (by simp))
    obtain ⟨tail, ht⟩ := Option.isSome_iff_exists.mp (ih fun w hw => h w (by simp [hw]))
    unfold insertSorted?
    cases isBelow <;> simp [hb, ht]

/-- Sorts values; none if some of them have no order. -/
def sort? (vs : List Value) : Option (List Value) :=
  vs.foldl (fun sorted v => sorted.bind (insertSorted? v)) (some [])

/-- Values of a kind that has an order can be sorted. -/
theorem isSome_sort? {p : Value → Prop} {vs : List Value} (hp : ∀ v w, p v → p w → (below? v w).isSome)
    (h : ∀ v ∈ vs, p v) : (sort? vs).isSome := by
  suffices hfold : ∀ sorted : List Value, (∀ w ∈ sorted, p w) →
      (vs.foldl (fun sorted v => sorted.bind (insertSorted? v)) (some sorted)).isSome from
    hfold [] (by simp)
  induction vs with
  | nil => exact fun _ _ => rfl
  | cons v rest ih =>
    intro sorted hsorted
    have hv : p v := h v (by simp)
    obtain ⟨sorted', hs⟩ := Option.isSome_iff_exists.mp
      (isSome_insertSorted? fun w hw => hp v w hv (hsorted w hw))
    rw [List.foldl_cons, Option.bind_some, hs]
    exact ih (fun v hv => h v (by simp [hv])) sorted' (forall_insertSorted? hv hsorted hs)

end Value

end CeilingGate
