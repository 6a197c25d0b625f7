import CeilingGate.Stop
import CeilingGate.Value.Text

/-! Durations in seconds: a number, the text of a number, or a row of parts such as `1h30m`. -/
namespace CeilingGate.Duration

open CeilingGate.Text

inductive TimeUnit
  | millisecond
  | second
  | minute
  | hour
deriving DecidableEq, Repr

/-- One part of a duration: digits, perhaps digits behind a point, and a unit. -/
structure Part where
  whole : List Nat
  fraction : List Nat
  unit : TimeUnit
deriving DecidableEq, Repr

def TimeUnit.seconds : TimeUnit → Binary64
  | .millisecond => .ofDecimal false 1 (-3)
  | .second => .ofDecimal false 1 0
  | .minute => .ofDecimal false 60 0
  | .hour => .ofDecimal false 3600 0

def Part.number (p : Part) : Binary64 :=
  .ofDecimal false (ofDigits 10 (p.whole ++ p.fraction)) (-(p.fraction.length : Int))

def Part.seconds (p : Part) : Binary64 := p.number * p.unit.seconds

/-- The unit at the start of a text; `ms` is never read as minutes. -/
def splitUnit? : List Char → Option (TimeUnit × List Char)
  | 'm' :: 's' :: rest => some (.millisecond, rest)
  | 's' :: rest => some (.second, rest)
  | 'm' :: rest => some (.minute, rest)
  | 'h' :: rest => some (.hour, rest)
  | _ => none

theorem splitUnit?_length {cs rest : List Char} {u : TimeUnit} (h : splitUnit? cs = some (u, rest)) :
    rest.length < cs.length := by
  unfold splitUnit? at h
  split at h <;> simp only [Option.some.injEq, Prod.mk.injEq, reduceCtorEq] at h
  all_goals
    obtain ⟨_, rfl⟩ := h
    simp only [List.length_cons]
    omega

/-- The digits behind a point, of which there is at least one. -/
def splitPoint : List Char → List Nat × List Char
  | '.' :: rest =>
    match Numeral.splitDigits rest with
    | ([], _) => ([], '.' :: rest)
    | (ds, tail) => (ds, tail)
  | cs => ([], cs)

theorem splitDigits_length (cs : List Char) :
    (Numeral.splitDigits cs).2.length ≤ cs.length := by
  induction cs with
  | nil => simp [Numeral.splitDigits]
  | cons c rest ih => unfold Numeral.splitDigits; split <;> simp_all; omega

theorem splitPoint_length (cs : List Char) : (splitPoint cs).2.length ≤ cs.length := by
  unfold splitPoint
  split
  · rename_i rest
    have := splitDigits_length rest
    split <;> simp_all
    omega
  · simp

def splitPart? (cs : List Char) : Option (Part × List Char) :=
  match Numeral.splitDigits cs with
  | ([], _) => none
  | (whole, afterWhole) =>
    let point := splitPoint afterWhole
    (splitUnit? point.2).map fun u => (⟨whole, point.1, u.1⟩, u.2)

theorem splitPart?_length {cs rest : List Char} {p : Part} (h : splitPart? cs = some (p, rest)) :
    rest.length < cs.length := by
  unfold splitPart? at h
  split at h
  · simp at h
  · rename_i whole tail _ heq
    obtain ⟨⟨u, r⟩, hu, hr⟩ := Option.map_eq_some_iff.1 h
    obtain ⟨_, rfl⟩ := Prod.mk.inj hr
    have hunit := splitUnit?_length hu
    have hpoint := splitPoint_length tail
    have hdigits := splitDigits_length cs
    simp only [heq] at hdigits
    exact Nat.lt_of_lt_of_le hunit (Nat.le_trans hpoint hdigits)

/-- The first part anywhere in a text, with what stands before it and behind it. -/
def firstPart? : List Char → Option (List Char × Part × List Char)
  | [] => none
  | c :: rest =>
    match splitPart? (c :: rest) with
    | some (p, after) => some ([], p, after)
    | none => (firstPart? rest).map fun (before, found) => (c :: before, found)

/-- A part that is found where the search begins is the one that stands there. -/
theorem firstPart?_eq_nil_iff {cs after : List Char} {p : Part} :
    firstPart? cs = some ([], p, after) ↔ splitPart? cs = some (p, after) := by
  cases cs with
  | nil => simp [firstPart?, splitPart?, Numeral.splitDigits]
  | cons c rest =>
    unfold firstPart?
    cases splitPart? (c :: rest) with
    | none => simp
    | some found =>
      obtain ⟨q, tail⟩ := found
      simp

/-- The parts from the start of a text on, and what is left where the next part does not begin at once. -/
def collectParts (cs : List Char) : List Part × List Char :=
  match _h : firstPart? cs with
  | some ([], p, after) =>
    let (ps, rest) := collectParts after
    (p :: ps, rest)
  | _ => ([], cs)
termination_by cs.length
decreasing_by exact splitPart?_length (firstPart?_eq_nil_iff.mp _h)

/-- The parts that make up a text, of which there is at least one. -/
def parts? (cs : List Char) : Option (List Part) :=
  match collectParts cs with
  | (p :: ps, []) => some (p :: ps)
  | _ => none

def sum (ps : List Part) : Binary64 := ps.foldl (fun total p => total + p.seconds) (.zero false)

inductive Fault
  | unreadable (shown : String)
  | notPositive (shown : String)
  | tooManyDigits
deriving DecidableEq, Repr

def Fault.message : Fault → String
  | .unreadable shown => "invalid duration: " ++ shown
  | .notPositive shown => "duration must be positive: " ++ shown
  | .tooManyDigits => Integer.digitLimitMessage

/-- The seconds that a text stands for. A text that is a number by itself is not split into parts. -/
def secondsOfText? (s : String) : Option Binary64 :=
  (Binary64.parse? s.toList).or ((parts? s.toList).map sum)

/-- The seconds that the text of a value stands for, if the value has a text. -/
def secondsOfShown : Option RawText → Except (Stop Fault) Binary64
  | none => .error (.fault .tooManyDigits)
  | some (.plain s) =>
    match secondsOfText? (strip s) with
    | some x => .ok x
    | none => .error (.fault (.unreadable (quoted (strip s))))
  | some (.broken t) => .error (.fault (.unreadable (quotedCodes (RawText.stripCodes t.codes))))

/-- The seconds that a value stands for, of any sign. -/
def seconds (v : Value) : Except (Stop Fault) Binary64 :=
  match v with
  | .bool _ => .error (.fault (.unreadable ((v.shown?).getD "")))
  | .float x => .ok x
  | .int i =>
    match Binary64.ofInt? i with
    | some x => .ok x
    | none => .error (.abort .hugeNumber)
  | .brokenText codes => .error (.fault (.unreadable (quotedCodes (RawText.stripCodes codes))))
  | _ => secondsOfShown v.text?

/-- Reads a duration. It must not be zero or less. -/
def ofValue (v : Value) : Except (Stop Fault) Binary64 := do
  let x ← seconds v
  if x.isAtMostZero then throw (.fault (.notPositive ((v.shown?).getD ""))) else return x

end CeilingGate.Duration
