import CeilingGate.CommandLine.CheckConfig
import CeilingGate.CommandLine.Command
import CeilingGate.CommandLine.Review
import CeilingGate.CommandLine.Serve
import CeilingGate.Service.Health

/-! One invocation of the program, from its arguments to a code or a running service. -/
namespace CeilingGate.CommandLine

inductive Finish
  | returned (code : Int)
  | exited (code : Int)
  | escaped (a : Abort)
  | serving (r : Reload.Reloader)

/-- What an invocation has led to. What belongs to a stage that was not reached is missing. -/
structure Invocation where
  finish : Finish
  output : List RawText
  events : List Event
  settings? : Option Settings
  reloader? : Option Reload.Reloader
  listeners? : Option Listeners

def programName : String := "limits-admission"

def ofHalt : Halt → Invocation
  | .misuse => ⟨.exited 2, [], [], none, none, none⟩
  | .helpShown => ⟨.exited 0, [], [], none, none, none⟩
  | .versionShown => ⟨.exited 0, [.plain (programName ++ " " ++ Service.version)], [], none, none, none⟩

/-- Ends an invocation with the code of its outcome. -/
def ofWork (log : Logger) (w : Work) (settings? : Option Settings) (reloader? : Option Reload.Reloader) :
    Invocation :=
  match conclude log .standard w.outcome with
  | .ok ending =>
    ⟨.returned ending.code, w.output, w.events ++ ending.events, settings?, reloader?, none⟩
  | .error a => ⟨.escaped a, w.output, w.events, settings?, reloader?, none⟩

def ofStartup (log : Logger) (s : Settings) (startup : Startup) : Invocation :=
  match startup.reloader?, startup.listeners? with
  | some r, some listeners =>
    ⟨.serving r, [], startup.work.events, some s, some r, some listeners⟩
  | reloader?, _ => ofWork log startup.work (some s) reloader?

def settingsFailure (issues : List Validation.Issue) : Failure :=
  ⟨.configuration, "invalid settings: " ++ (Settings.rejection issues).summary, []⟩

def serve (log : Logger) (files : Files) (environment : Settings.Environment) (given : Values) :
    Invocation :=
  match Settings.load files environment (given.map fun (k, v) => (.text k, .text v)) with
  | .error a => ofWork log (.ending (.ofAbort a) []) none none
  | .ok (.error issues) => ofWork log (.ending (.failed (settingsFailure issues)) []) none none
  | .ok (.ok s) => ofStartup log s (startService files s)

/-- Runs the command of the arguments, with the libraries that show its output and take its log. -/
def invoke (console : Console) (log : Logger) (files : Files) (environment : Settings.Environment)
    (arguments : List String) : Invocation :=
  match Command.ofArguments arguments with
  | .error halt => ofHalt halt
  | .ok (.checkConfig policy) => ofWork log (checkConfig console files policy) none none
  | .ok (.review policy path) => ofWork log (reviewFile console files policy path) none none
  | .ok (.serve given) => serve log files environment given

end CeilingGate.CommandLine
