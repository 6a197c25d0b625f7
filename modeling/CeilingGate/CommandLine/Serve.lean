import CeilingGate.CommandLine.Work
import CeilingGate.Reload.Reloader
import CeilingGate.Settings.Tls

/-! Starting the service: the policy comes first, then the reloader, then the two addresses. -/
namespace CeilingGate.CommandLine

def appTitle : String := "Resource Limits Admission"

/-- What a server listens on; with a certificate it speaks TLS. -/
structure Listener where
  address : Address
  certificate? : Option RawText
  key? : Option RawText
deriving DecidableEq, Repr

structure Listeners where
  main : Listener
  ops : Listener
deriving DecidableEq, Repr

/-- How far the start has come. -/
structure Startup where
  work : Work
  reloader? : Option Reload.Reloader
  listeners? : Option Listeners

def plainEvent (s : Settings) (l : Listener) : List Event :=
  if l.certificate?.isSome then []
  else [⟨.warning, "tls_disabled", [("addr", s.address.text.toValue)]⟩]

def startedEvent (s : Settings) : Event :=
  ⟨.info, "app_started",
    [("addr", s.address.text.toValue), ("ops_addr", s.opsAddress.text.toValue),
      ("config_file", s.configFile.toValue)]⟩

def readyEvent (number : Nat) : Event :=
  ⟨.info, "app_started", [("app", .text appTitle), ("generation", .int number)]⟩

def shutdownEvent : Event := ⟨.warning, "shutting_down", [("app", .text appTitle)]⟩

def tlsFailure (f : Settings.TlsFault) : Failure := .ofDetails .configuration f.message f.details

/-- Opens the two addresses for a reloader that has its first policy. -/
def listen (files : Files) (s : Settings) (r : Reload.Reloader) (events : List Event) : Startup :=
  match s.tlsFiles files with
  | .error f => ⟨.ending (.failed (tlsFailure f)) events, some r, none⟩
  | .ok (certificate?, key?) =>
    let main : Listener := ⟨s.address, certificate?, key?⟩
    let ops : Listener := ⟨s.opsAddress, none, none⟩
    let logged := plainEvent s main ++ [startedEvent s, readyEvent r.store.number]
    ⟨.ending (.done 0) (events ++ logged), some r, some ⟨main, ops⟩⟩

/-- Halves in this range stand for bytes in names of files. -/
def isByteCode (code : Nat) : Bool := 0xdc80 ≤ code && code ≤ 0xdcff

/-- The path of a text. Files are known by names of characters only. -/
def policyPath (t : RawText) : Except (Stop Policy.Fault) Path :=
  match t with
  | .plain s => .ok (.ofText s)
  | .broken b =>
    if (b.codes.filter Text.isHalfCode).all isByteCode then
      .error (.fault (.unreadableFile t .missing))
    else .error (.abort (.unencodable b))

def loadPolicy (files : Files) (t : RawText) : Except (Stop Policy.Fault) (Path × Policy.Generation) := do
  let path ← policyPath t
  let g ← Policy.load files path
  return (path, g)

/-- Starts the service as far as it gets. The reloader is left waiting. -/
def startService (files : Files) (s : Settings) : Startup :=
  match loadPolicy files s.configFile with
  | .error stop => ⟨.ending (.ofPolicyStop stop) [], none, none⟩
  | .ok (path, g) =>
    let events := [g.parsedEvent]
    match Reload.Reloader.create? path s.refreshInterval true (.ofGeneration g) with
    | none =>
      ⟨.ending (.crashed "ValueError" (.ok "refresh_interval must be positive")) events, none, none⟩
    | some r => listen files s r events

/-- Stops the service; the reloader goes last. -/
def stopService (r : Reload.Reloader) : Work :=
  let (change, closed) := r.close
  let outcome : Outcome :=
    match closed with
    | .ok () => .done 0
    | .error a => .ofAbort a
  .ending outcome (shutdownEvent :: change.events)

end CeilingGate.CommandLine
