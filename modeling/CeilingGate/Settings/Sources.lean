import CeilingGate.Files
import CeilingGate.Settings.Basic
import CeilingGate.Settings.EnvFile

/-! Where settings come from: given values count before the environment, and the environment before
the environment file. -/
namespace CeilingGate.Settings

open CeilingGate.Validation

abbrev Environment := List (String × String)

/-- Names of the environment begin with this, in any case of letters. -/
def environmentStart : String := "limits_admission_"

/-- The fields that named contents set. -/
def namedFields (contents : List (String × Option String)) : Entries :=
  fieldNames.filterMap fun f =>
    ((contents.lookup (environmentStart ++ f)).join).map fun s => (.text f, .text s)

/-- Names in small letters; of two that differ only in case the last counts. -/
def smallNames {α : Type} (contents : List (String × α)) : List (String × α) :=
  Keyed.ofList (contents.map fun (name, a) => (Text.lower name, a))

/-- The fields that the environment sets; its other names are left alone. -/
def ofEnvironment (environment : Environment) : Entries :=
  namedFields (smallNames (environment.map fun (name, s) => (name, some s)))

/-- Names of an environment file that have a content, but are no field. -/
def strangers (contents : List (String × Option String)) : Entries :=
  contents.filterMap fun (name, content?) =>
    let known := fieldNames.any fun f => name == f || name == environmentStart ++ f
    match content? with
    | some s => if s.isEmpty || known then none else some (.text name, .text s)
    | none => none

/-- What an environment file sets: its fields, and the names that do not belong there. -/
def ofEnvFile (environment : Environment) (s : String) : Entries :=
  let contents := smallNames (EnvFile.read environment s)
  namedFields contents ++ strangers contents

/-- All sources together. -/
def gather (environment : Environment) (envFile? : Option String) (given : Entries) : Entries :=
  let fromFile := (envFile?.map (ofEnvFile environment)).getD []
  (ofEnvironment environment ++ given).foldl (fun done (k, v) => Value.insertEntry done k v) fromFile

def envFilePath : Path := .ofText ".env"

/-- The environment file is found in the working directory. -/
def load (files : Files) (environment : Environment) (given : Entries) :
    Except Abort (Checked Settings) :=
  match files.readText envFilePath with
  | .ok s => ofEntries (gather environment (some s) given)
  | .error .notText => .error .badEncoding
  | .error _ => ofEntries (gather environment none given)

end CeilingGate.Settings
