import CeilingGate.CommandLine.Ending
import CeilingGate.Policy.Loader

/-! What a command has done: its outcome, what the console has shown, and what it has logged. -/
namespace CeilingGate.CommandLine

/-- What a command hands to the console. Lines, panels and cells are written in the markup of the console:
words in square brackets set a style. -/
inductive Printout
  | blank
  | line (markup : RawText)
  | panel (markup : RawText)
  | table (title : RawText) (headings : List RawText) (rows : List (List RawText))
  | json (text : RawText)
deriving DecidableEq, Repr

/-- The console library, bound to a screen: it shows lines, or fails. -/
abbrev Console := Printout → Except Abort (List RawText)

/-- The lines that are shown, up to a printout on which the console fails. -/
def shown (console : Console) : List Printout → List RawText × Option Abort
  | [] => ([], none)
  | p :: rest =>
    match console p with
    | .ok lines =>
      let (more, failure?) := shown console rest
      (lines ++ more, failure?)
    | .error a => ([], some a)

variable {console : Console} {ps : List Printout} {p : Printout}

theorem shown_eq_none_iff :
    (shown console ps).2 = none ↔ ∀ p ∈ ps, ∃ lines, console p = .ok lines := by
  induction ps with
  | nil => simp [shown]
  | cons p rest ih =>
    unfold shown
    cases hp : console p with
    | ok lines => simp [hp, ih]
    | error a => simp [hp]

/-- Where the console never fails the lines of each printout are shown. -/
theorem lines_of_shown (h : (shown console ps).2 = none) (hp : p ∈ ps) :
    ∃ before lines after, console p = .ok lines ∧
      (shown console ps).1 = before ++ lines ++ after := by
  induction ps with
  | nil => cases hp
  | cons first rest ih =>
    unfold shown at h ⊢
    cases hfirst : console first with
    | error a => simp [hfirst] at h
    | ok lines =>
      simp only [hfirst] at h ⊢
      rcases List.mem_cons.mp hp with rfl | hp
      · exact ⟨[], lines, _, hfirst, rfl⟩
      · obtain ⟨before, lines', after, hlines, heq⟩ := ih h hp
        exact ⟨lines ++ before, lines', after, hlines, by simp [heq]⟩

structure Work where
  outcome : Outcome
  output : List RawText
  events : List Event

def Work.ending (outcome : Outcome) (events : List Event) : Work := ⟨outcome, [], events⟩

def Outcome.ofAbort? (o : Outcome) : Option Abort → Outcome
  | some a => .ofAbort a
  | none => o

/-- Work whose result is printed; a console that fails ends it. -/
def Work.printing (console : Console) (outcome : Outcome) (ps : List Printout)
    (events : List Event) : Work :=
  let (output, failure?) := shown console ps
  ⟨outcome.ofAbort? failure?, output, events⟩

/-- Work that prints is done exactly if the console takes all that is printed. -/
theorem printing_outcome_iff {code : Int} {events : List Event} :
    (Work.printing console (.done code) ps events).outcome = .done code ↔
      ∀ p ∈ ps, ∃ lines, console p = .ok lines := by
  rw [← shown_eq_none_iff]
  simp only [Work.printing]
  cases (shown console ps).2 <;> simp [Outcome.ofAbort?, Outcome.ofAbort]

def policyFailure (f : Policy.Fault) : Failure := .ofDetails .configuration f.message f.details

def Outcome.ofPolicyStop : Stop Policy.Fault → Outcome
  | .fault f => .failed (policyFailure f)
  | .abort a => .ofAbort a

end CeilingGate.CommandLine
