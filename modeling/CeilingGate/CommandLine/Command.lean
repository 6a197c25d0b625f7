import CeilingGate.CommandLine.Arguments

/-! The commands: serving, which is also what happens without a command, checking a policy, and
reviewing a file. -/
namespace CeilingGate.CommandLine

inductive Command
  | serve (given : Values)
  | checkConfig (policy : String)
  | review (policy body : String)
deriving DecidableEq, Repr

namespace Command

def helpRules : List OptionRule := [⟨"-h", .showHelp⟩, ⟨"--help", .showHelp⟩]

/-- The options that override settings. -/
def settingRules : List OptionRule :=
  [⟨"--config-file", .store "config_file" []⟩,
    ⟨"--refresh-interval", .store "refresh_interval" []⟩,
    ⟨"--tls-cert-file", .store "tls_cert_file" []⟩,
    ⟨"--tls-private-key-file", .store "tls_key_file" []⟩,
    ⟨"--addr", .store "addr" []⟩,
    ⟨"--ops-addr", .store "ops_addr" []⟩,
    ⟨"--log.level", .store "log_level" ["error", "warn", "info", "debug"]⟩,
    ⟨"--log.format", .store "log_format" ["text", "json"]⟩]

def topRules : List OptionRule := helpRules ++ settingRules ++ [⟨"--version", .showVersion⟩]

def policyRule : OptionRule := ⟨"--config-file", .store "policy" []⟩

/-- Reads the arguments behind the name of a command. -/
def readRest (rules : List OptionRule) (places : List String) (texts : List String) :
    Except Halt Findings := do
  readArguments places (← classify rules texts) .none

def word (f : Findings) (place : String) : String := (f.words.lookup place).getD ""

def requirePolicy (f : Findings) : Except Halt String :=
  match f.values.lookup "policy" with
  | some policy => .ok policy
  | none => .error .misuse

/-- The command of a name, and whether some of its words have no place. -/
def readNamed (name : String) (values : Values) (texts : List String) :
    Except Halt (Command × Bool) :=
  match name with
  | "serve" => do
    let f ← readRest (helpRules ++ settingRules) [] texts
    return (.serve (Keyed.insertAll values f.values), f.hasStray)
  | "check-config" => do
    let f ← readRest helpRules ["config"] texts
    return (.checkConfig (word f "config"), f.hasStray)
  | "review" => do
    let f ← readRest (helpRules ++ [policyRule]) ["review_file"] texts
    return (.review (← requirePolicy f) (word f "review_file"), f.hasStray)
  | _ => throw .misuse

/-- Reads the options before the name of a command, which takes all that follows it. -/
def readTop (args : List Argument) (f : Findings) : Except Halt (Command × Bool) :=
  match args with
  | [] => .ok (.serve f.values, f.hasStray)
  | ⟨name, .word⟩ :: rest => do
    let (command, strays) ← readNamed name f.values (rest.map (·.text))
    return (command, f.hasStray || strays)
  | ⟨_, .separator⟩ :: _ => .error .misuse
  | ⟨_, .stranger⟩ :: rest => readTop rest f.stray
  | ⟨_, .option r attached?⟩ :: rest =>
    match _h : applyOption r attached? f.values rest with
    | .ok (values, rest') => readTop rest' { f with values := values }
    | .error halt => .error halt
termination_by args.length
decreasing_by
  all_goals simp only [List.length_cons]
  · omega
  · exact Nat.lt_succ_of_le (applyOption_length _h)

/-- The command of a whole command line. A word that has no place is misuse. -/
def ofArguments (texts : List String) : Except Halt Command := do
  let (command, strays) ← readTop (← classify topRules texts) .none
  if strays then throw .misuse else return command

end Command

end CeilingGate.CommandLine
