import CeilingGate.Admission.Metrics
import CeilingGate.Binary64.Text
import CeilingGate.Policy.Store

/-! Keeping the store in step with the policy file. A reload that fails leaves the active generation in
place. -/
namespace CeilingGate.Reload

open CeilingGate.Policy

/-- What the reload loop waits for. -/
inductive Trigger
  | timer
  | fileChange
  | watchError (message : String)
  | shutdown
deriving DecidableEq, Repr

def Trigger.name : Trigger → String
  | .timer => "timer"
  | .fileChange => "file_change"
  | .watchError _ => "watch_error"
  | .shutdown => "shutdown"

/-- What comes next when the wait ends: shutdown before all else, then the trigger that waits longest,
and the timer if there is none. -/
def next {α : Type} (isStopped : Bool) (timer shutdown : α) (queue : List α) : α × List α :=
  if isStopped then (shutdown, queue)
  else
    match queue with
    | first :: rest => (first, rest)
    | [] => (timer, [])

/-- Whether the reload loop runs. An abort ends it, and is told to whoever closes it. -/
inductive Loop
  | idle
  | running
  | aborted (a : Abort)
deriving DecidableEq, Repr

structure Reloader where
  path : Path
  interval : Binary64
  watchesFiles : Bool
  store : Store
  reloads : Nat
  reloadErrors : Nat
  loop : Loop
deriving Repr

/-- A new state, with what was counted and logged on the way to it. -/
structure Change where
  reloader : Reloader
  counts : Metrics
  events : List Event

namespace Reloader

def isRunning (r : Reloader) : Bool := r.loop == .running

/-- The interval between two reloads must be positive. -/
def create? (path : Path) (interval : Binary64) (watchesFiles : Bool) (store : Store) :
    Option Reloader :=
  if interval.isAtMostZero then none else some ⟨path, interval, watchesFiles, store, 0, 0, .idle⟩

def pathField (r : Reloader) : RawText × Value := ("path", .text r.path.text)

/-- The details of a fault name the path if they do not say otherwise. -/
def faultFields (r : Reloader) (f : Fault) : List (RawText × Value) :=
  let details := f.details.map fun (k, v?) => (RawText.plain k, Value.ofText? v?)
  if f.details.any fun (k, _) => k == "path" then details else r.pathField :: details

def faultEvent (r : Reloader) (f : Fault) : Event :=
  ⟨.error, "config_load_error", ("error", f.message.toValue) :: r.faultFields f⟩

def reloadedEvent (r : Reloader) : Event :=
  ⟨.info, "policy_reloaded", [r.pathField, ("generation", .int r.store.number)]⟩

/-- Publishes what was loaded, or keeps what there is. A load that was aborted is counted, and the
abort goes on to the caller. -/
def reload (r : Reloader) (loaded : Except (Stop Fault) Generation) : Change × Except Abort Bool :=
  let r := { r with reloads := r.reloads + 1 }
  match loaded with
  | .ok g =>
    let r := { r with store := (r.store.publish g).2 }
    (⟨r, .oneReload, [g.parsedEvent, r.store.publishedEvent, r.reloadedEvent]⟩, .ok true)
  | .error (.fault f) =>
    let r := { r with reloadErrors := r.reloadErrors + 1 }
    (⟨r, .oneReload + .oneReloadError, [r.faultEvent f]⟩, .ok false)
  | .error (.abort a) => (⟨r, .oneReload, []⟩, .error a)

def triggeredEvent (t : Trigger) : Event :=
  ⟨.debug, "policy_reload_triggered", [("trigger", .text t.name)]⟩

def watchErrorEvent (r : Reloader) (message : String) : Event :=
  ⟨.error, "watch_error", [r.pathField, ("error", .text message)]⟩

def stoppedEvent (r : Reloader) : Event := ⟨.info, "policy_watch_stopped", [r.pathField]⟩

def startedEvent (r : Reloader) : Event :=
  ⟨.info, "policy_watch_started",
    [r.pathField, ("refresh_interval", .float r.interval), ("watch_files", .bool r.watchesFiles)]⟩

/-- Handles one trigger of a loop that runs; `loaded` is what the policy file gives at that moment. An
abort ends the loop. -/
def step (r : Reloader) (t : Trigger) (loaded : Except (Stop Fault) Generation) : Change :=
  match t with
  | .shutdown => ⟨{ r with loop := .idle }, .zero, [r.stoppedEvent]⟩
  | .watchError message => ⟨r, .zero, [r.watchErrorEvent message]⟩
  | .timer | .fileChange =>
    match r.reload loaded with
    | (change, .ok _) => { change with events := triggeredEvent t :: change.events }
    | (change, .error a) =>
      { change with
        reloader := { change.reloader with loop := .aborted a }
        events := triggeredEvent t :: change.events ++ [change.reloader.stoppedEvent] }

/-- Handles a trigger. A loop that has ended handles none. -/
def handle (r : Reloader) (t : Trigger) (loaded : Except (Stop Fault) Generation) : Change :=
  if r.isRunning then r.step t loaded else ⟨r, .zero, []⟩

/-- Starts the loop, unless it runs already. -/
def start? (r : Reloader) (interval : Binary64) : Option Change :=
  if r.isRunning then none
  else
    let r := { r with interval := interval, loop := .running }
    some ⟨r, .zero, [r.startedEvent]⟩

/-- Stops the loop if it runs. What has aborted it goes on to the caller. -/
def close (r : Reloader) : Change × Except Abort Unit :=
  match r.loop with
  | .idle => (⟨r, .zero, []⟩, .ok ())
  | .running => (⟨{ r with loop := .idle }, .zero, [r.stoppedEvent]⟩, .ok ())
  | .aborted a => (⟨r, .zero, []⟩, .error a)

/-- The link through which a mounted directory is replaced as a whole has a name of this form. -/
def isSwapName (name : String) : Bool := "..data".toList.isPrefixOf name.toList

/-- Whether a changed path may mean a changed policy. -/
def isPolicyChange (r : Reloader) (changed : String) : Bool :=
  let name := (Path.ofText changed).name
  name == r.path.name || isSwapName name

end Reloader

end CeilingGate.Reload
