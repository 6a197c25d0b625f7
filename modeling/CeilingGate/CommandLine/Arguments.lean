import CeilingGate.Keyed
import CeilingGate.Text.Digit

/-! The arguments of a command line, by the grammar of each command. Options may be written with a
part of their names that fits no other option, and their values behind an equals sign. -/
namespace CeilingGate.CommandLine

/-- What an option does: it takes a value, which may be restricted to a few words, or it ends the
work with a text. -/
inductive Action
  | store (field : String) (choices : List String)
  | showHelp
  | showVersion
deriving DecidableEq, Repr

structure OptionRule where
  name : String
  action : Action
deriving DecidableEq, Repr

/-- Why there is no command to run. -/
inductive Halt
  | misuse
  | helpShown
  | versionShown
deriving DecidableEq, Repr

/-- What an argument is for a command: a positional word, one of its options with an attached value,
an option of others, or the two dashes behind which all words are positional. -/
inductive Role
  | word
  | option (rule : OptionRule) (attached? : Option String)
  | stranger
  | separator
deriving DecidableEq, Repr

structure Argument where
  text : String
  role : Role
deriving DecidableEq, Repr

def isNegativeWhole (cs : List Char) : Bool := !cs.isEmpty && cs.all Text.isDecimalDigit

/-- A minus sign with digits behind it, perhaps with a point before the last of them. -/
def isNegativeNumber (cs : List Char) : Bool :=
  match cs with
  | '-' :: rest =>
    isNegativeWhole rest ||
      match rest.span Text.isDecimalDigit with
      | (_, '.' :: fraction) => isNegativeWhole fraction
      | _ => false
  | _ => false

/-- A name and the value behind the first equals sign. -/
def splitEquals (cs : List Char) : List Char × Option String :=
  match cs.span (· != '=') with
  | (name, _ :: value) => (name, some (String.ofList value))
  | (name, []) => (name, none)

/-- The options that a dashed word may stand for. -/
def matchingOptions (rules : List OptionRule) (cs : List Char) : List (OptionRule × Option String) :=
  match cs with
  | '-' :: '-' :: _ =>
    let (name, value?) := splitEquals cs
    (rules.filter fun r => name.isPrefixOf r.name.toList).map (·, value?)
  | dash :: letter :: rest =>
    (rules.filter fun r => r.name.toList == [dash, letter]).map (·, some (String.ofList rest))
  | _ => []

/-- The option of exactly this name, or of the name before an equals sign. -/
def exactOption? (rules : List OptionRule) (cs : List Char) : Option (OptionRule × Option String) :=
  match rules.find? fun r => r.name.toList == cs with
  | some r => some (r, none)
  | none =>
    match splitEquals cs with
    | (name, some value) =>
      (rules.find? fun r => r.name.toList == name).map fun r => (r, some value)
    | _ => none

/-- The role of a word before any two dashes; a part of several names is misuse. -/
def roleOf (rules : List OptionRule) (s : String) : Except Halt Role :=
  let cs := s.toList
  if cs == ['-', '-'] then .ok .separator
  else if cs.head? != some '-' || cs.length == 1 then .ok .word
  else
    match exactOption? rules cs with
    | some (r, value?) => .ok (.option r value?)
    | none =>
      match matchingOptions rules cs with
      | [(r, value?)] => .ok (.option r value?)
      | _ :: _ => .error .misuse
      | [] => .ok (if isNegativeNumber cs || cs.contains ' ' then .word else .stranger)

def classify (rules : List OptionRule) : List String → Except Halt (List Argument)
  | [] => .ok []
  | s :: rest => do
    let role ← roleOf rules s
    if role == .separator then
      return ⟨s, role⟩ :: rest.map fun t => ⟨t, .word⟩
    else return ⟨s, role⟩ :: (← classify rules rest)

abbrev Values := List (String × String)

/-- A flag has no value; what follows a short one at once is taken for more flags, and comes too
late. -/
def flagHalt (name : String) (attached? : Option String) (halt : Halt) : Halt :=
  match attached? with
  | none => halt
  | some s => if name.length == 2 && !s.isEmpty then halt else .misuse

def storeValue (field : String) (choices : List String) (value : String) (values : Values) :
    Except Halt Values :=
  if choices.isEmpty || choices.contains value then .ok (Keyed.insert values field value)
  else .error .misuse

/-- Applies an option; its value may be the next word. -/
def applyOption (r : OptionRule) (attached? : Option String) (values : Values)
    (rest : List Argument) : Except Halt (Values × List Argument) :=
  match r.action, attached?, rest with
  | .showHelp, _, _ => .error (flagHalt r.name attached? .helpShown)
  | .showVersion, _, _ => .error (flagHalt r.name attached? .versionShown)
  | .store field choices, some value, _ =>
    (storeValue field choices value values).map (·, rest)
  | .store field choices, none, ⟨value, .word⟩ :: rest =>
    (storeValue field choices value values).map (·, rest)
  | .store .., none, _ => .error .misuse

theorem applyOption_length {r : OptionRule} {attached? : Option String} {values : Values}
    {rest : List Argument} {p : Values × List Argument}
    (h : applyOption r attached? values rest = .ok p) : p.2.length ≤ rest.length := by
  unfold applyOption at h
  split at h
  · simp at h
  · simp at h
  · unfold storeValue at h
    split at h <;> simp [Except.map] at h
    simp [← h]
  · unfold storeValue at h
    split at h <;> simp [Except.map] at h
    simp [← h]
  · simp at h

/-- What has been found on the way: values of options, positional words by name, and whether there
was a word that has no place. -/
structure Findings where
  values : Values
  words : Values
  hasStray : Bool
deriving DecidableEq, Repr

def Findings.none : Findings := ⟨[], [], false⟩

def Findings.stray (f : Findings) : Findings := { f with hasStray := true }

/-- Two dashes behind the last positional word go with it. -/
def dropSeparator : List Argument → List Argument
  | ⟨_, .separator⟩ :: rest => rest
  | rest => rest

theorem dropSeparator_length (args : List Argument) : (dropSeparator args).length ≤ args.length := by
  unfold dropSeparator
  split <;> simp

/-- Reads the arguments of one command, whose positional words have the given names. -/
def readArguments (places : List String) (args : List Argument) (f : Findings) :
    Except Halt Findings :=
  match args with
  | [] => if places.isEmpty then .ok f else .error .misuse
  | ⟨s, .word⟩ :: rest =>
    match places with
    | place :: others =>
      readArguments others (dropSeparator rest) { f with words := Keyed.insert f.words place s }
    | [] => readArguments [] rest f.stray
  | ⟨_, .separator⟩ :: rest =>
    if places.isEmpty then readArguments places rest f.stray
    else readArguments places rest f
  | ⟨_, .stranger⟩ :: rest => readArguments places rest f.stray
  | ⟨_, .option r attached?⟩ :: rest =>
    match _h : applyOption r attached? f.values rest with
    | .ok (values, rest') => readArguments places rest' { f with values := values }
    | .error halt => .error halt
termination_by args.length
decreasing_by
  all_goals simp only [List.length_cons]
  · exact Nat.lt_succ_of_le (dropSeparator_length rest)
  · omega
  · omega
  · omega
  · omega
  · exact Nat.lt_succ_of_le (applyOption_length _h)

end CeilingGate.CommandLine
