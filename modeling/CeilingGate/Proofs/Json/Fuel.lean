import CeilingGate.Json.Reader
import CeilingGate.Proofs.Outcome
import Mathlib.Control.Basic
import Mathlib.Data.List.TakeDrop
import Mathlib.Data.List.TakeWhile
import Mathlib.Order.Basic

/-! The fuel of the JSON reader. It is no limit of its own: more fuel changes no result but that of having
none, and a text needs no more than about twice its length. -/
namespace CeilingGate.Json

variable {d : Dialect} {n m depth : Nat} {cs rest after : List Char} {v : Value}

/-! ## One step of reading -/

/-- An opening bracket begins an empty list, a list inside too many collections, or items. -/
theorem readValue_list (d : Dialect) (depth : Nat) (rest : List Char) :
    (∃ after, skipSpaces rest = ']' :: after ∧
        ∀ n, readValue d (n + 1) depth ('[' :: rest) = .ok (.list [], after)) ∨
      (¬∃ after, skipSpaces rest = ']' :: after) ∧
        ((d.depth ≤ depth ∧ ∀ n, readValue d (n + 1) depth ('[' :: rest) = .error .tooDeep) ∨
          depth < d.depth ∧ ∀ n, readValue d (n + 1) depth ('[' :: rest) =
            readItems d n (depth + 1) (skipSpaces rest) >>= fun r => .ok (.list r.1, r.2)) := by
  by_cases hnil : ∃ after, skipSpaces rest = ']' :: after
  · obtain ⟨after, hafter⟩ := hnil
    refine .inl ⟨after, hafter, fun n => ?_⟩
    rw [readValue]
    simp only [hafter]
  · refine .inr ⟨hnil, ?_⟩
    obtain hd | hd := Nat.lt_or_ge depth d.depth
    · refine .inr ⟨hd, fun n => ?_⟩
      rw [readValue]
      split
      · next h => exact absurd ⟨_, h⟩ hnil
      · rw [if_neg (by omega)]
    · refine .inl ⟨hd, fun n => ?_⟩
      rw [readValue]
      split
      · next h => exact absurd ⟨_, h⟩ hnil
      · rw [if_pos hd]

/-- An opening brace begins an empty mapping, a mapping inside too many collections, or entries. -/
theorem readValue_dict (d : Dialect) (depth : Nat) (rest : List Char) :
    (∃ after, skipSpaces rest = '\x7d' :: after ∧
        ∀ n, readValue d (n + 1) depth ('\x7b' :: rest) = .ok (.dict [], after)) ∨
      (¬∃ after, skipSpaces rest = '\x7d' :: after) ∧
        ((d.depth ≤ depth ∧ ∀ n, readValue d (n + 1) depth ('\x7b' :: rest) = .error .tooDeep) ∨
          depth < d.depth ∧ ∀ n, readValue d (n + 1) depth ('\x7b' :: rest) =
            readEntries d n (depth + 1) (skipSpaces rest) >>= fun r =>
              .ok (.dict (Value.ofEntries r.1), r.2)) := by
  by_cases hnil : ∃ after, skipSpaces rest = '\x7d' :: after
  · obtain ⟨after, hafter⟩ := hnil
    refine .inl ⟨after, hafter, fun n => ?_⟩
    rw [readValue]
    simp only [hafter]
  · refine .inr ⟨hnil, ?_⟩
    obtain hd | hd := Nat.lt_or_ge depth d.depth
    · refine .inr ⟨hd, fun n => ?_⟩
      rw [readValue]
      split
      · next h => exact absurd ⟨_, h⟩ hnil
      · rw [if_neg (by omega)]
    · refine .inl ⟨hd, fun n => ?_⟩
      rw [readValue]
      split
      · next h => exact absurd ⟨_, h⟩ hnil
      · rw [if_pos hd]

/-- Whatever opens no collection is a scalar. -/
theorem readValue_scalar (h : ∀ rest, cs ≠ '[' :: rest) (h' : ∀ rest, cs ≠ '\x7b' :: rest) :
    readValue d (n + 1) depth cs = readScalar d cs := by
  rw [readValue]
  · exact h
  · exact h'

/-- What stands after a part of a collection: its end, or a comma and more parts. -/
def readMore {α : Type} (close : Char) (more : List Char → Except Fault (List α × List Char)) (a : α)
    (rest : List Char) : Except Fault (List α × List Char) :=
  match skipSpaces rest with
  | [] => .error .malformed
  | c :: after =>
    if c = close then .ok ([a], after)
    else if c = ',' then more (skipSpaces after) >>= fun r => .ok (a :: r.1, r.2)
    else .error .malformed

theorem readItems_succ :
    readItems d (n + 1) depth cs =
      readValue d n depth cs >>= fun r => readMore ']' (readItems d n depth) r.1 r.2 := by
  rw [readItems]
  apply bind_congr
  rintro ⟨v, rest⟩
  unfold readMore
  simp only
  split
  · next hs => simp [hs]
  · next hs => simp [hs]
  · next hclose hcomma =>
    cases hs : skipSpaces rest with
    | nil => rfl
    | cons c after =>
      have hc : c ≠ ']' := fun he => hclose after (by rw [hs, he])
      have hc' : c ≠ ',' := fun he => hcomma after (by rw [hs, he])
      simp [hc, hc']

/-- What stands after a key: a colon, a value, and what stands after the entry. -/
def readContent (value : List Char → Except Fault (Value × List Char))
    (more : List Char → Except Fault (List (Value × Value) × List Char)) (key : Value)
    (rest : List Char) : Except Fault (List (Value × Value) × List Char) :=
  match skipSpaces rest with
  | ':' :: start => value (skipSpaces start) >>= fun r => readMore '\x7d' more (key, r.1) r.2
  | _ => .error .malformed

theorem readEntries_succ :
    readEntries d (n + 1) depth ('"' :: cs) =
      readText d cs >>= fun r =>
        readContent (readValue d n depth) (readEntries d n depth) r.1 r.2 := by
  rw [readEntries]
  apply bind_congr
  rintro ⟨key, rest⟩
  unfold readContent
  dsimp only
  cases skipSpaces rest with
  | nil => rfl
  | cons c start =>
    by_cases hcolon : c = ':'
    · subst hcolon
      apply bind_congr
      rintro ⟨v, rest⟩
      unfold readMore
      simp only
      split
      · next hs => simp [hs]
      · next hs => simp [hs]
      · next hclose hcomma =>
        cases hs : skipSpaces rest with
        | nil => rfl
        | cons c after =>
          have hc : c ≠ '\x7d' := fun he => hclose after (by rw [hs, he])
          have hc' : c ≠ ',' := fun he => hcomma after (by rw [hs, he])
          simp [hc, hc']
    · simp [hcolon]

theorem readEntries_of_ne_quote (h : ∀ rest, cs ≠ '"' :: rest) :
    readEntries d n depth cs = .error .malformed := by
  cases n with
  | zero => rw [readEntries]
  | succ n =>
    rw [readEntries]
    exact h

/-- A text opens a list, a mapping or neither. -/
theorem opens_cases (cs : List Char) :
    (∃ rest, cs = '[' :: rest) ∨ (∃ rest, cs = '\x7b' :: rest) ∨
      (∀ rest, cs ≠ '[' :: rest) ∧ ∀ rest, cs ≠ '\x7b' :: rest := by
  by_cases hlist : ∃ rest, cs = '[' :: rest
  · exact .inl hlist
  · by_cases hdict : ∃ rest, cs = '\x7b' :: rest
    · exact .inr (.inl hdict)
    · exact .inr (.inr ⟨not_exists.mp hlist, not_exists.mp hdict⟩)

/-! ## Nothing is read twice -/

theorem length_skipSpaces_le (cs : List Char) : (skipSpaces cs).length ≤ cs.length :=
  (List.dropWhile_sublist _).length_le

theorem length_of_hexCode? {code : Nat} (h : hexCode? cs = some (code, rest)) :
    rest.length < cs.length := by
  unfold hexCode? at h
  split at h
  · simp only [Option.bind_eq_bind, Option.bind_eq_some_iff] at h
    obtain ⟨_, _, _, _, _, _, _, _, he⟩ := h
    cases he
    simp only [List.length_cons]
    omega
  · cases h

theorem length_joinPair_le (code : Nat) (cs : List Char) :
    (joinPair code cs).2.length ≤ cs.length := by
  unfold joinPair
  split
  · split
    · next more _ _ hcode =>
      have hmore := length_of_hexCode? hcode
      split
      · simp only [List.length_cons]
        omega
      · exact Nat.le_refl _
    · exact Nat.le_refl _
  · exact Nat.le_refl _

theorem length_of_readCodes {codes : List Nat} (h : readCodes d n cs = some (codes, rest)) :
    rest.length < cs.length := by
  induction n generalizing cs codes with
  | zero => cases h
  | succ n ih =>
    unfold readCodes at h
    split at h
    · cases h
      simp
    · next tail =>
      simp only [Option.bind_eq_bind, Option.bind_eq_some_iff, Prod.exists] at h
      obtain ⟨code, afterCode, hcode, codes', after, hcodes, he⟩ := h
      cases he
      have h₁ := length_of_hexCode? hcode
      have h₂ := length_joinPair_le code afterCode
      have h₃ := ih hcodes
      simp only [List.length_cons]
      omega
    · simp only [Option.bind_eq_bind, Option.bind_eq_some_iff, Prod.exists] at h
      obtain ⟨_, _, codes', after, hcodes, he⟩ := h
      cases he
      have h₁ := ih hcodes
      simp only [List.length_cons]
      omega
    · split at h
      · cases h
      · simp only [Option.bind_eq_bind, Option.bind_eq_some_iff, Prod.exists] at h
        obtain ⟨codes', after, hcodes, he⟩ := h
        cases he
        have h₁ := ih hcodes
        simp only [List.length_cons]
        omega
    · cases h

theorem length_of_readText (h : readText d cs = .ok (v, rest)) : rest.length < cs.length := by
  unfold readText at h
  split at h
  · cases h
  · next hcodes =>
    have hlt := length_of_readCodes hcodes
    split at h
    · cases h
      exact hlt
    · split at h
      · cases h
        exact hlt
      · cases h

theorem length_takeDigits_le (cs : List Char) : (takeDigits cs).2.length ≤ cs.length := by
  rw [takeDigits, List.span_eq_takeWhile_dropWhile]
  exact (List.dropWhile_sublist _).length_le

theorem length_readFraction_le (cs : List Char) : (readFraction cs).2.length ≤ cs.length := by
  unfold readFraction
  split
  · next tail =>
    have htail := length_takeDigits_le tail
    split
    · exact Nat.le_refl _
    · next hd =>
      simp only [hd] at htail
      simp only [List.length_cons]
      omega
  · exact Nat.le_refl _

theorem length_splitSign_le (cs : List Char) : (Numeral.splitSign cs).2.length ≤ cs.length := by
  unfold Numeral.splitSign
  split <;> simp

theorem length_readPower_le (cs : List Char) : (readPower cs).2.length ≤ cs.length := by
  unfold readPower
  split
  · next c tail =>
    have hsign := length_splitSign_le tail
    have htail := length_takeDigits_le (Numeral.splitSign tail).2
    split
    · split
      next negative unsigned hunsigned =>
      rw [hunsigned] at hsign htail
      split
      · exact Nat.le_refl _
      · next hd =>
        simp only [hd] at hsign htail
        simp only [List.length_cons]
        omega
    · exact Nat.le_refl _
  · exact Nat.le_refl _

theorem length_of_readNumber {negative : Bool} (h : readNumber d negative cs = .ok (v, rest)) :
    rest.length ≤ cs.length := by
  unfold readNumber at h
  split at h
  rename_i whole tail hwhole
  have htail : tail.length ≤ cs.length := by
    split at hwhole
    · cases hwhole
      simp
    · have := length_takeDigits_le cs
      rwa [hwhole] at this
  have hfraction := length_readFraction_le tail
  have hpower := length_readPower_le (readFraction tail).2
  split at h
  · cases h
  · simp only at h
    split at h
    · split at h
      · cases h
      · cases h
        omega
    · cases h
      omega

theorem length_of_readWord {word : String} {w : Value}
    (h : readWord word w cs = .ok (v, rest)) : rest.length ≤ cs.length := by
  unfold readWord afterWord? at h
  split at h
  · next hw =>
    cases h
    split at hw
    · cases hw
      simp
    · cases hw
  · cases h

theorem length_of_readScalar (h : readScalar d cs = .ok (v, rest)) :
    rest.length ≤ cs.length := by
  unfold readScalar at h
  split at h
  · have := length_of_readText h
    simp only [List.length_cons]
    omega
  · exact length_of_readWord h
  · exact length_of_readWord h
  · exact length_of_readWord h
  · exact length_of_readWord h
  · exact length_of_readWord h
  · exact length_of_readWord h
  · have := length_of_readNumber h
    simp only [List.length_cons]
    omega
  · exact length_of_readNumber h

theorem length_of_readMore {α : Type} {close : Char} {a : α} {as : List α}
    {more : List Char → Except Fault (List α × List Char)}
    (h : readMore close more a cs = .ok (as, rest))
    (hmore : ∀ start r, more start = .ok r → r.2.length ≤ start.length) :
    rest.length ≤ cs.length := by
  have hs := length_skipSpaces_le cs
  unfold readMore at h
  split at h
  · cases h
  · next c after hafter =>
    rw [hafter, List.length_cons] at hs
    split at h
    · cases h
      omega
    · split at h
      · obtain ⟨r, hr, he⟩ := bind_eq_ok.mp h
        cases he
        have h₁ := hmore _ _ hr
        have h₂ := length_skipSpaces_le after
        omega
      · cases h

theorem length_of_readContent {key : Value} {entries : List (Value × Value)}
    {value : List Char → Except Fault (Value × List Char)}
    {more : List Char → Except Fault (List (Value × Value) × List Char)}
    (h : readContent value more key cs = .ok (entries, rest))
    (hvalue : ∀ start r, value start = .ok r → r.2.length ≤ start.length)
    (hmore : ∀ start r, more start = .ok r → r.2.length ≤ start.length) :
    rest.length ≤ cs.length := by
  have hs := length_skipSpaces_le cs
  unfold readContent at h
  split at h
  · next start hstart =>
    obtain ⟨r, hr, h⟩ := bind_eq_ok.mp h
    have h₁ := hvalue _ _ hr
    have h₂ := length_of_readMore h hmore
    have h₃ := length_skipSpaces_le start
    rw [hstart, List.length_cons] at hs
    omega
  · cases h

/-- What a reading leaves is no longer than what it was given. -/
theorem length_of_read (d : Dialect) (n : Nat) :
    (∀ depth cs r, readValue d n depth cs = .ok r → r.2.length ≤ cs.length) ∧
      (∀ depth cs r, readItems d n depth cs = .ok r → r.2.length ≤ cs.length) ∧
      ∀ depth cs r, readEntries d n depth cs = .ok r → r.2.length ≤ cs.length := by
  induction n with
  | zero =>
    refine ⟨fun depth cs r h => ?_, fun depth cs r h => ?_, fun depth cs r h => ?_⟩
    · rw [readValue] at h
      cases h
    · rw [readItems] at h
      cases h
    · rw [readEntries] at h
      cases h
  | succ n ih =>
    obtain ⟨hvalue, hitems, hentries⟩ := ih
    refine ⟨fun depth cs r h => ?_, fun depth cs r h => ?_, fun depth cs r h => ?_⟩
    · obtain ⟨tail, rfl⟩ | ⟨tail, rfl⟩ | ⟨hlist, hdict⟩ := opens_cases cs
      · have htail := length_skipSpaces_le tail
        rw [List.length_cons]
        obtain ⟨after, hafter, hread⟩ | ⟨-, ⟨-, hread⟩ | ⟨-, hread⟩⟩ := readValue_list d depth tail
        · cases (hread n).symm.trans h
          simp only
          rw [hafter, List.length_cons] at htail
          omega
        · cases (hread n).symm.trans h
        · obtain ⟨r, hr, he⟩ := bind_eq_ok.mp ((hread n).symm.trans h)
          cases he
          simp only
          have := hitems _ _ _ hr
          omega
      · have htail := length_skipSpaces_le tail
        rw [List.length_cons]
        obtain ⟨after, hafter, hread⟩ | ⟨-, ⟨-, hread⟩ | ⟨-, hread⟩⟩ := readValue_dict d depth tail
        · cases (hread n).symm.trans h
          simp only
          rw [hafter, List.length_cons] at htail
          omega
        · cases (hread n).symm.trans h
        · obtain ⟨r, hr, he⟩ := bind_eq_ok.mp ((hread n).symm.trans h)
          cases he
          simp only
          have := hentries _ _ _ hr
          omega
      · rw [readValue_scalar hlist hdict] at h
        exact length_of_readScalar h
    · rw [readItems_succ] at h
      obtain ⟨r', hv, h⟩ := bind_eq_ok.mp h
      have h₁ := hvalue _ _ _ hv
      have h₂ := length_of_readMore h (hitems depth)
      omega
    · by_cases hquote : ∃ tail, cs = '"' :: tail
      · obtain ⟨tail, rfl⟩ := hquote
        rw [readEntries_succ] at h
        obtain ⟨r', hkey, h⟩ := bind_eq_ok.mp h
        have h₁ := length_of_readText hkey
        have h₂ := length_of_readContent h (hvalue depth) (hentries depth)
        rw [List.length_cons]
        omega
      · rw [readEntries_of_ne_quote (not_exists.mp hquote)] at h
        cases h

/-! ## More fuel -/

/-- A result that is not taken for a text that is not well formed. -/
def IsSettled {α : Type} (x : Except Fault α) : Prop := x ≠ .error .malformed

theorem isSettled_of_bind {α β : Type} {x : Except Fault α} {f : α → Except Fault β}
    (h : IsSettled (x >>= f)) : IsSettled x := by
  rintro rfl
  exact h rfl

variable {α : Type} {P : Prop} {close : Char} {a : α}

theorem readMore_congr {more more' : List Char → Except Fault (List α × List Char)}
    (h : IsSettled (readMore close more a rest) ∨ P)
    (hmore : ∀ start, start.length < rest.length → IsSettled (more start) ∨ P →
      more' start = more start) :
    readMore close more' a rest = readMore close more a rest := by
  have hs := length_skipSpaces_le rest
  unfold readMore at h ⊢
  split
  · rfl
  · next c after hafter =>
    have hstart := length_skipSpaces_le after
    rw [hafter, List.length_cons] at hs
    simp only [hafter] at h
    split
    · rfl
    · next hclose =>
      split
      · next hcomma =>
        rw [if_neg hclose, if_pos hcomma] at h
        rw [hmore _ (by omega) (h.imp_left isSettled_of_bind)]
      · rfl

theorem readContent_congr {key : Value} {value value' : List Char → Except Fault (Value × List Char)}
    {more more' : List Char → Except Fault (List (Value × Value) × List Char)}
    (h : IsSettled (readContent value more key rest) ∨ P)
    (hvalue : ∀ start, start.length < rest.length → IsSettled (value start) ∨ P →
      value' start = value start)
    (hle : ∀ start r, value start = .ok r → r.2.length ≤ start.length)
    (hmore : ∀ start, start.length < rest.length → IsSettled (more start) ∨ P →
      more' start = more start) :
    readContent value' more' key rest = readContent value more key rest := by
  have hs := length_skipSpaces_le rest
  unfold readContent at h ⊢
  split
  · next start hstart =>
    have hstart' := length_skipSpaces_le start
    rw [hstart, List.length_cons] at hs
    simp only [hstart] at h
    rw [hvalue _ (by omega) (h.imp_left isSettled_of_bind)]
    cases hr : value (skipSpaces start) with
    | error e => rfl
    | ok r =>
      have hr' := hle _ _ hr
      rw [hr] at h
      exact readMore_congr h fun start' hlt hsettled => hmore start' (by omega) hsettled
  · rfl

/-- One more unit of fuel changes nothing that is settled, and nothing at all if there was enough. -/
theorem read_succ (d : Dialect) (n : Nat) :
    (∀ depth cs, IsSettled (readValue d n depth cs) ∨ 2 * cs.length + 2 ≤ n →
        readValue d (n + 1) depth cs = readValue d n depth cs) ∧
      (∀ depth cs, IsSettled (readItems d n depth cs) ∨ 2 * cs.length + 3 ≤ n →
        readItems d (n + 1) depth cs = readItems d n depth cs) ∧
      ∀ depth cs, IsSettled (readEntries d n depth cs) ∨ 2 * cs.length + 3 ≤ n →
        readEntries d (n + 1) depth cs = readEntries d n depth cs := by
  induction n with
  | zero =>
    refine ⟨fun depth cs h => ?_, fun depth cs h => ?_, fun depth cs h => ?_⟩
    · exact absurd (by rw [readValue]) (h.resolve_right (by omega))
    · exact absurd (by rw [readItems]) (h.resolve_right (by omega))
    · exact absurd (by rw [readEntries]) (h.resolve_right (by omega))
  | succ n ih =>
    obtain ⟨hvalue, hitems, hentries⟩ := ih
    refine ⟨fun depth cs h => ?_, fun depth cs h => ?_, fun depth cs h => ?_⟩
    · obtain ⟨tail, rfl⟩ | ⟨tail, rfl⟩ | ⟨hlist, hdict⟩ := opens_cases cs
      · have htail := length_skipSpaces_le tail
        obtain ⟨after, -, hread⟩ | ⟨-, ⟨-, hread⟩ | ⟨-, hread⟩⟩ := readValue_list d depth tail
        · rw [hread, hread]
        · rw [hread, hread]
        · rw [hread, List.length_cons] at h
          rw [hread, hread, hitems _ _ (h.imp isSettled_of_bind (by omega))]
      · have htail := length_skipSpaces_le tail
        obtain ⟨after, -, hread⟩ | ⟨-, ⟨-, hread⟩ | ⟨-, hread⟩⟩ := readValue_dict d depth tail
        · rw [hread, hread]
        · rw [hread, hread]
        · rw [hread, List.length_cons] at h
          rw [hread, hread, hentries _ _ (h.imp isSettled_of_bind (by omega))]
      · rw [readValue_scalar hlist hdict, readValue_scalar hlist hdict]
    · rw [readItems_succ] at h
      rw [readItems_succ, readItems_succ, hvalue _ _ (h.imp isSettled_of_bind (by omega))]
      cases hr : readValue d n depth cs with
      | error e => rfl
      | ok r =>
        have hle := (length_of_read d n).1 _ _ _ hr
        rw [hr] at h
        refine readMore_congr h fun start hlt hsettled => ?_
        exact hitems _ _ (hsettled.imp_right (by omega))
    · by_cases hquote : ∃ tail, cs = '"' :: tail
      · obtain ⟨tail, rfl⟩ := hquote
        rw [readEntries_succ] at h
        rw [readEntries_succ, readEntries_succ]
        cases hr : readText d tail with
        | error e => rfl
        | ok r =>
          have hlt := length_of_readText hr
          rw [hr, List.length_cons] at h
          refine readContent_congr h (fun start hstart hsettled => ?_) ((length_of_read d n).1 depth)
            fun start hstart hsettled => ?_
          · exact hvalue _ _ (hsettled.imp_right (by omega))
          · exact hentries _ _ (hsettled.imp_right (by omega))
      · have hnone := not_exists.mp hquote
        rw [readEntries_of_ne_quote hnone, readEntries_of_ne_quote hnone]

theorem readValue_of_le (h : IsSettled (readValue d n depth cs)) (hle : n ≤ m) :
    readValue d m depth cs = readValue d n depth cs := by
  induction m, hle using Nat.le_induction with
  | base => rfl
  | succ m _ ih => rw [(read_succ d m).1 _ _ (.inl (by rwa [ih])), ih]

theorem readItems_of_le (h : IsSettled (readItems d n depth cs)) (hle : n ≤ m) :
    readItems d m depth cs = readItems d n depth cs := by
  induction m, hle using Nat.le_induction with
  | base => rfl
  | succ m _ ih => rw [(read_succ d m).2.1 _ _ (.inl (by rwa [ih])), ih]

theorem readEntries_of_le (h : IsSettled (readEntries d n depth cs)) (hle : n ≤ m) :
    readEntries d m depth cs = readEntries d n depth cs := by
  induction m, hle using Nat.le_induction with
  | base => rfl
  | succ m _ ih => rw [(read_succ d m).2.2 _ _ (.inl (by rwa [ih])), ih]

/-- Fuel of twice the length of a text and two is enough for a value. -/
theorem readValue_of_enough (h : IsSettled (readValue d m depth cs)) (hn : 2 * cs.length + 2 ≤ n) :
    readValue d n depth cs = readValue d m depth cs := by
  have hstable : ∀ k, readValue d (n + k) depth cs = readValue d n depth cs := by
    intro k
    induction k with
    | zero => rfl
    | succ k ih => rw [← Nat.add_assoc, (read_succ d (n + k)).1 _ _ (.inr (by omega)), ih]
  rw [← hstable m]
  exact readValue_of_le h (by omega)

end CeilingGate.Json
