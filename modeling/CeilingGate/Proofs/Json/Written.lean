import CeilingGate.Json.Writer
import CeilingGate.Proofs.Json.Limits
import CeilingGate.Proofs.Value.Keys
import CeilingGate.Proofs.Yaml.Digits

/-! Reading what was written. A line that a value was written on is read as that value, by a reader that has
room for it. -/
namespace CeilingGate.Json

open CeilingGate.Text

/-- A reader has room for a value inside `depth` collections. Integers have no more digits than it takes,
collections with content are not too deep for it, and floats have texts that it reads as they are. Keys
differ. -/
inductive Fits (d : Dialect) : Nat → Value → Prop
  | null {depth : Nat} : Fits d depth .null
  | bool {depth : Nat} (b : Bool) : Fits d depth (.bool b)
  | int {depth : Nat} {i : Int} (h : (Nat.toDigits 10 i.natAbs).length ≤ d.digits) :
      Fits d depth (.int i)
  | float {depth : Nat} {x : Binary64} (h : readScalar d (writeFloat x).toList = .ok (.float x, [])) :
      Fits d depth (.float x)
  | text {depth : Nat} (s : String) : Fits d depth (.text s)
  | list {depth : Nat} {items : List Value} (hd : items = [] ∨ depth < d.depth)
      (hitems : ∀ v ∈ items, Fits d (depth + 1) v) : Fits d depth (.list items)
  | dict {depth : Nat} {entries : List (Value × Value)} (hd : entries = [] ∨ depth < d.depth)
      (hkeys : ∀ e ∈ entries, ∃ s, e.1 = .text s) (hdiffer : entries.Pairwise fun e e' => e.1 ≠ e'.1)
      (hvalues : ∀ e ∈ entries, Fits d (depth + 1) e.2) : Fits d depth (.dict entries)

/-- What may stand behind a value: nothing, a comma, or the end of a collection. -/
def Ends (rest : List Char) : Prop :=
  ∀ c more, rest = c :: more → c = ',' ∨ c = ']' ∨ c = '\x7d'

variable {d : Dialect} {depth n fuel : Nat} {cs rest more : List Char} {v : Value} {s : String}
  {c : Char} {negative : Bool} {x : Binary64}

/-! ## Texts -/

theorem Ends.isDigit (h : Ends rest) : ∀ c more, rest = c :: more → c.isDigit = false := by
  intro c more hc
  rcases h c more hc with rfl | rfl | rfl <;> rfl

/-- The number of which the digits before the point have been taken. -/
def readBehind (d : Dialect) (negative : Bool) (whole cs : List Char) :
    Except Fault (Value × List Char) :=
  let n := ofDigits 10 (digitValues (whole ++ (readFraction cs).1))
  let power := readPower (readFraction cs).2
  if whole.isEmpty then .error .malformed
  else if (readFraction cs).1.isEmpty && power.1.isNone then
    if whole.length > d.digits then .error (.tooManyDigits whole.length)
    else .ok (.int (if negative then -(n : Int) else n), power.2)
  else .ok (.float (Binary64.ofDecimal negative n (power.1.getD 0 - (readFraction cs).1.length)), power.2)

theorem readNumber_of_ne_zero (h : ∀ more, cs ≠ '0' :: more) :
    readNumber d negative cs = readBehind d negative (takeDigits cs).1 (takeDigits cs).2 := by
  cases cs with
  | nil => rfl
  | cons c tail => simp [readNumber, readBehind]

/-- A number starts with a digit. -/
theorem readNumber_start (h : readNumber d negative cs = .ok (v, rest)) :
    ∃ c more, cs = c :: more ∧ c.isDigit = true := by
  by_cases hzero : ∃ more, cs = '0' :: more
  · obtain ⟨more, rfl⟩ := hzero
    exact ⟨'0', more, rfl, rfl⟩
  · rw [readNumber_of_ne_zero (not_exists.mp hzero)] at h
    obtain ⟨ds, tail, hds⟩ : ∃ ds tail, takeDigits cs = (ds, tail) := ⟨_, _, rfl⟩
    obtain ⟨rfl, hdigits, -⟩ := of_takeDigits hds
    cases ds with
    | nil =>
      rw [hds] at h
      cases h
    | cons c more => exact ⟨c, more ++ tail, rfl, hdigits c List.mem_cons_self⟩

/-- Characters that no scalar starts with. -/
def brackets : List Char := [' ', '\t', '\n', '\r', '[', ']', '\x7b', '\x7d']

theorem readScalar_start (h : readScalar d cs = .ok (v, rest)) :
    ∃ c more, cs = c :: more ∧ c ∉ brackets := by
  have hdigit {c : Char} (hc : c.isDigit = true) : c ∉ brackets := by
    intro hmem
    have hnone : ∀ c ∈ brackets, c.isDigit = false := by simp [brackets]
    exact absurd hc (by simp [hnone c hmem])
  unfold readScalar at h
  split at h
  all_goals try exact ⟨_, _, rfl, by decide⟩
  · obtain ⟨c, more, rfl, hc⟩ := readNumber_start h
    exact ⟨c, more, rfl, hdigit hc⟩

theorem skipSpaces_of_not_bracket (h : c ∉ brackets) (cs : List Char) :
    skipSpaces (c :: cs) = c :: cs := by
  have hspace : isSpace c = false := by
    simp only [brackets, List.mem_cons, not_or] at h
    simp [isSpace, h]
  simp [skipSpaces, hspace]

theorem Reads.start (h : Reads d depth cs v rest) :
    skipSpaces cs = cs ∧ ∀ more, cs ≠ ']' :: more := by
  obtain ⟨n, h⟩ := h
  cases n with
  | zero => cases h
  | succ n =>
    obtain ⟨more, rfl⟩ | ⟨more, rfl⟩ | ⟨hlist, hdict⟩ := opens_cases cs
    · exact ⟨rfl, by simp⟩
    · exact ⟨rfl, by simp⟩
    · rw [readValue_scalar hlist hdict] at h
      obtain ⟨c, more, rfl, hc⟩ := readScalar_start h
      refine ⟨skipSpaces_of_not_bracket hc more, ?_⟩
      rintro _ ⟨⟩
      exact hc (by decide)

theorem ends_comma (cs : List Char) : Ends (", ".toList ++ cs) := by
  rintro c more ⟨⟩
  exact .inl rfl

/-- Behind a comma and a blank reading goes on. -/
theorem readMore_comma {α : Type} {parts : List α}
    {next : List Char → Except Fault (List α × List Char)} {close : Char} (hclose : close ≠ ',')
    (hs : skipSpaces cs = cs) (h : next cs = .ok (parts, rest)) (a : α) :
    readMore close next a (", ".toList ++ cs) = .ok (a :: parts, rest) := by
  have hcomma : skipSpaces (", ".toList ++ cs) = ',' :: ' ' :: cs := rfl
  have hblank : skipSpaces (' ' :: cs) = cs := hs
  simp only [readMore, hcomma, if_neg hclose.symm, if_true, hblank, h]
  rfl

/-- How the parts of a collection are read, be they items or entries. -/
structure ReadsParts {α : Type} (close : Char)
    (read : Nat → List Char → Except Fault (List α × List Char)) : Prop where
  close_ne : close ≠ ','
  close_noSpace : isSpace close = false
  more : ∀ {n m : Nat} {cs : List Char} {r : List α × List Char},
    read n cs = .ok r → n ≤ m → read m cs = .ok r
  start : ∀ {n : Nat} {cs : List Char} {r : List α × List Char},
    read n cs = .ok r → skipSpaces cs = cs

/-- Parts that are read one by one are read from one line. -/
theorem ReadsParts.line {α : Type} {close : Char}
    {read : Nat → List Char → Except Fault (List α × List Char)} (hread : ReadsParts close read)
    {write : α → String} {parts : List α} (hne : parts ≠ []) (hends : Ends (close :: rest))
    (h : ∀ a ∈ parts, ∀ more, Ends more → ∃ n, ∀ m, n ≤ m →
      read (m + 1) ((write a).toList ++ more) = readMore close (read m) a more) :
    ∃ n, read n ((", ".intercalate (parts.map write)).toList ++ close :: rest) = .ok (parts, rest) := by
  induction parts with
  | nil => exact absurd rfl hne
  | cons a parts ih =>
    cases parts with
    | nil =>
      obtain ⟨n, hn⟩ := h a List.mem_cons_self _ hends
      refine ⟨n + 1, ?_⟩
      rw [List.map_singleton, String.intercalate_singleton, hn n (Nat.le_refl n)]
      simp [readMore, skipSpaces, hread.close_noSpace]
    | cons b parts =>
      obtain ⟨n, hn⟩ := ih (List.cons_ne_nil _ _) fun a ha => h a (List.mem_cons_of_mem _ ha)
      generalize hnext : (", ".intercalate ((b :: parts).map write)).toList ++ close :: rest = next at hn
      obtain ⟨m, hm⟩ := h a List.mem_cons_self _ (ends_comma next)
      refine ⟨max n m + 1, ?_⟩
      have hline : (", ".intercalate ((a :: b :: parts).map write)).toList ++ close :: rest =
          (write a).toList ++ (", ".toList ++ next) := by
        rw [List.map_cons, List.map_cons, String.intercalate_cons_cons, ← List.map_cons, ← hnext]
        simp only [String.toList_append, List.append_assoc]
      rw [hline, hm _ (Nat.le_max_right n m)]
      exact readMore_comma hread.close_ne (hread.start hn) (hread.more hn (Nat.le_max_left n m)) a

end CeilingGate.Json
