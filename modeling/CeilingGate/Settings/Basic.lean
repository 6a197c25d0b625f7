import CeilingGate.Address
import CeilingGate.Duration
import CeilingGate.Log.Verbosity
import CeilingGate.Validation.Field

/-! Settings of the service, checked field by field. -/
namespace CeilingGate

open CeilingGate.Validation

structure Settings where
  configFile : RawText
  refreshInterval : Binary64
  tlsCertFile? : Option RawText
  tlsKeyFile? : Option RawText
  address : Address
  opsAddress : Address
  verbosity : Log.Verbosity
  format : Log.Format
deriving DecidableEq, Repr

namespace Settings

def fieldNames : List String :=
  ["config_file", "refresh_interval", "tls_cert_file", "tls_key_file", "addr", "ops_addr",
    "log_level", "log_format"]

def defaultInterval : Binary64 := .ofDecimal false 300 0

/-- The address for admission reviews, unless there is another one. -/
def defaultAddress : Address := ⟨"0.0.0.0:8443", Address.anyHost, 8443⟩

/-- The address for health and metrics, unless there is another one. -/
def defaultOpsAddress : Address := ⟨"0.0.0.0:8090", Address.anyHost, 8090⟩

/-- A number that is too large for a double ends the work. -/
def readInterval (v : Value) : Except Abort (Checked Binary64) :=
  match Duration.ofValue v with
  | .ok x => .ok (.ok x)
  | .error (.fault f) => .ok (.fail (.rejected f.message))
  | .error (.abort a) => .error a

def readAddress (v : Value) : Checked Address := do
  match Address.ofText (← readText v) with
  | .ok a => return a
  | .error f => .fail (.rejected f.message)

/-- What a text names; a broken text names nothing. -/
def meaning? {α : Type} (ofName? : String → Option α) : RawText → Option α
  | .plain s => ofName? s
  | .broken _ => none

/-- One of a few words, in any case of letters. -/
def readWord {α : Type} (ofName? : String → Option α) (complaint : String) (v : Value) :
    Checked α := do
  let word := (← readText v).lower
  match meaning? ofName? word with
  | some a => return a
  | none => .fail (.rejected (complaint ++ ": " ++ word))

def readVerbosity : Value → Checked Log.Verbosity :=
  readWord Log.Verbosity.ofName? "unsupported log level"

def readFormat : Value → Checked Log.Format := readWord Log.Format.ofName? "unsupported log format"

def intervalField (entries : Entries) : Except Abort (Checked Binary64) :=
  match named? entries ["refresh_interval"] with
  | none => .ok (.ok defaultInterval)
  | some (n, v) => (readInterval v).map fun c => c.under (.key n)

/-- Entries that are no field. -/
def unexpected (entries : Entries) : Checked Unit :=
  let isField (k : Value) : Bool := fieldNames.any fun n => Value.sameKey k (.text n)
  match (entries.filter fun e => !isField e.1).map fun e => (⟨[stepTo e.1], .unexpected⟩ : Issue) with
  | [] => .ok ()
  | issues => .error issues

/-- Reads settings; what is not given keeps its default. -/
def ofEntries (entries : Entries) : Except Abort (Checked Settings) := do
  let interval ← intervalField entries
  let configFile := field entries ["config_file"] (.plain "/etc/rra/config.yaml") readText
  let certFile := field entries ["tls_cert_file"] none (readOptional readText)
  let keyFile := field entries ["tls_key_file"] none (readOptional readText)
  let address := field entries ["addr"] defaultAddress readAddress
  let opsAddress := field entries ["ops_addr"] defaultOpsAddress readAddress
  let verbosity := field entries ["log_level"] .info readVerbosity
  let format := field entries ["log_format"] .text readFormat
  let settings :=
    (((((((Checked.map Settings.mk configFile).apply interval).apply certFile).apply keyFile).apply
      address).apply opsAddress).apply verbosity).apply format
  ((Checked.map (fun s _ => s) settings).apply (unexpected entries)).settle

def rejection (issues : List Issue) : Rejection := ⟨"Settings", false, issues⟩

end Settings

end CeilingGate
