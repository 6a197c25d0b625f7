import CeilingGate.CommandLine.Invocation
import CeilingGate.Log.Line
import CeilingGate.Service.Http

/-! The program: reads the files and the environment that an invocation may need, and prints what it has
led to. The service answers one review a line. -/
namespace CeilingGate.Program

open CeilingGate.CommandLine

/-- The styles that the program's own texts are written in. -/
def styles : List String := ["bold", "success", "error"]

/-- A text without the marks of its styles. -/
def unstyled (t : RawText) : String :=
  styles.foldl (fun s style => (s.replace ("[" ++ style ++ "]") "").replace ("[/" ++ style ++ "]") "")
    (String.ofList t.shape)

/-- Shows texts without styles, and cells between bars. -/
def console : Console := fun p =>
  .ok <| match p with
    | .blank => [""]
    | .line markup | .panel markup => [.plain (unstyled markup)]
    | .table title headings rows =>
      title :: (headings :: rows).map fun cells =>
        .plain (" | ".intercalate (cells.map fun cell => String.ofList cell.shape))
    | .json text => [text]

/-- Takes every event. -/
def logger : Logger := fun _ => .ok ()

def readFile? (path : String) : IO (Option (List UInt8)) := do
  try
    let bytes ← IO.FS.readBinFile path
    return some bytes.toList
  catch _ => return none

def readFiles (files : Files) (paths : List String) : IO Files := do
  let mut known := files
  for path in paths do
    match ← readFile? path with
    | some bytes => known := known.write (.ofText path) bytes
    | none => known := known.delete (.ofText path)
  return known

def readEnvironment : IO Settings.Environment := do
  let names := Settings.fieldNames.map fun f => (Settings.environmentStart ++ f).toUpper
  let contents ← names.mapM fun name => do return (← IO.getEnv name).map (name, ·)
  return contents.filterMap id

/-- The paths that an invocation may read. -/
def pathsOf (arguments : List String) (files : Files) (environment : Settings.Environment) :
    List String :=
  match Command.ofArguments arguments with
  | .ok (.checkConfig policy) => [policy]
  | .ok (.review policy path) => [policy, path]
  | .ok (.serve given) =>
    match Settings.load files environment (given.map fun (k, v) => (.text k, .text v)) with
    | .ok (.ok s) =>
      (s.configFile :: (s.tlsCertFile?.toList ++ s.tlsKeyFile?.toList)).map fun t =>
        String.ofList t.shape
    | _ => []
  | .error _ => []

def logEvents (settings? : Option Settings) (events : List Event) : IO Unit := do
  let verbosity := (settings?.map (·.verbosity)).getD .info
  let format := (settings?.map (·.format)).getD .text
  let time := toString (← IO.monoMsNow)
  for e in events do
    match Log.line? (Log.rank verbosity.level) format [] time e with
    | some line => IO.eprintln (String.ofList line.shape)
    | none => pure ()

/-- Reloads the policy if its file has changed. -/
def refresh (s : Settings) (files : Files) (r : Reload.Reloader) : IO (Files × Reload.Reloader) := do
  let path := r.path
  let latest ← readFiles files [path.text]
  if latest.lookup path.resolved == files.lookup path.resolved then return (files, r)
  else
    let change := r.handle .fileChange (Policy.load latest path)
    logEvents s change.events
    return (latest, change.reloader)

def answerLine (s : Settings) (r : Reload.Reloader) (line : String) : IO Unit := do
  let request : Service.HttpRequest := ⟨false, "POST", "/", Text.toUtf8 line⟩
  match Service.serve (Service.engineOf r.store.current) r.store request with
  | .error a => logEvents s [crashEvent a.typeName a.message]
  | .ok response =>
    logEvents s response.events
    match response.content with
    | .json v => IO.println (Json.line v)
    | _ => pure ()
    (← IO.getStdout).flush

/-- The code that an invocation ends with, if it has ended. -/
def codeOf (i : Invocation) : UInt32 :=
  match i.finish with
  | .returned code | .exited code => code.toNat.toUInt32
  | .escaped _ | .serving _ => 1

partial def serveLines (s : Settings) (files : Files) (r : Reload.Reloader) : IO UInt32 := do
  let line ← (← IO.getStdin).getLine
  if line.isEmpty then
    let last := ofWork logger (stopService r) (some s) (some r)
    logEvents s last.events
    return codeOf last
  else
    let (files, r) ← refresh s files r
    answerLine s r line
    serveLines s files r

def run (arguments : List String) : IO UInt32 := do
  let environment ← readEnvironment
  let first ← readFiles [] [Settings.envFilePath.text]
  let files ← readFiles first (pathsOf arguments first environment)
  let i := invoke console logger files environment arguments
  for line in i.output do IO.println (String.ofList line.shape)
  logEvents i.settings? i.events
  match i.finish, i.settings? with
  | .serving r, some s =>
    match r.start? s.refreshInterval with
    | some change =>
      logEvents s change.events
      serveLines s files change.reloader
    | none => return codeOf i
  | _, _ => return codeOf i

end CeilingGate.Program

def main (arguments : List String) : IO UInt32 := CeilingGate.Program.run arguments
