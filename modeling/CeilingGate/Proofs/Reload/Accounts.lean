import CeilingGate.Reload.Run

/-! What a run of the reload loop owes to the triggers that it handles: each reload is counted once,
each failed one a second time, and the active generation is that of the last load that succeeded. -/
namespace CeilingGate.Reload

open CeilingGate.Policy

variable {r : Reloader} {c d : Change} {a : Arrival Fault} {as : List (Arrival Fault)}
  {n k n' k' : Nat} {g g' : Generation}

/-- Whether a trigger asks for a reload. -/
def Trigger.isReload : Trigger → Bool
  | .timer | .fileChange => true
  | .watchError _ | .shutdown => false

/-- The loads of the reloads that are due before the first shutdown, in order. -/
def loads : List (Arrival Fault) → List (Except Fault Generation)
  | [] => []
  | a :: rest =>
    if a.trigger = .shutdown then []
    else if a.trigger.isReload then a.loaded :: loads rest
    else loads rest

def failures (as : List (Arrival Fault)) : Nat := (loads as).countP fun l => !l.isOk

/-- The generation of the last load that succeeded. -/
def latest? (as : List (Arrival Fault)) : Option Generation :=
  ((loads as).filterMap Except.toOption).getLast?

def HasShutdown (as : List (Arrival Fault)) : Prop := ∃ a ∈ as, a.trigger = .shutdown

/-- A change makes `n` reloads, of which `k` fail, and leaves `g` active. -/
structure Advance (r : Reloader) (n k : Nat) (g : Generation) (c : Change) : Prop where
  reloads : c.reloader.reloads = r.reloads + n
  reloadErrors : c.reloader.reloadErrors = r.reloadErrors + k
  number : c.reloader.store.number + k = r.store.number + n
  counts : c.counts = { Metrics.zero with reloads := n, reloadErrors := k }
  current : c.reloader.store.current = g

theorem advance_none (r : Reloader) (es : List Event) :
    Advance r 0 0 r.store.current ⟨r, .zero, es⟩ := ⟨rfl, rfl, rfl, rfl, rfl⟩

theorem advance_before (hc : Advance r n k g c) (hd : Advance c.reloader n' k' g' d) :
    Advance r (n + n') (k + k') g' (c.before d) where
  reloads := by
    have := hc.reloads
    have := hd.reloads
    simp only [Change.before]
    omega
  reloadErrors := by
    have := hc.reloadErrors
    have := hd.reloadErrors
    simp only [Change.before]
    omega
  number := by
    have := hc.number
    have := hd.number
    simp only [Change.before]
    omega
  counts := by
    simp only [Change.before, hc.counts, hd.counts]
    rfl
  current := hd.current

theorem handle_stopped (h : r.loop ≠ .running) (t : Trigger)
    (loaded : Except (Stop Fault) Generation) : r.handle t loaded = ⟨r, .zero, []⟩ := by
  simp [Reloader.handle, Reloader.isRunning, h]

theorem handle_running (h : r.loop = .running) (t : Trigger)
    (loaded : Except (Stop Fault) Generation) : r.handle t loaded = r.step t loaded := by
  simp [Reloader.handle, Reloader.isRunning, h]

theorem run_stopped (h : r.loop ≠ .running) (as : List (Arrival (Stop Fault))) :
    r.run as = ⟨r, .zero, []⟩ := by
  induction as with
  | nil => rfl
  | cons a rest ih =>
    simp only [Reloader.run, handle_stopped h, ih, Change.before]
    rfl

theorem step_reload (h : a.trigger.isReload = true) :
    r.step a.trigger a.answered.loaded =
      let change := (r.reload a.answered.loaded).1
      { change with events := Reloader.triggeredEvent a.trigger :: change.events } := by
  obtain ⟨t, l⟩ := a
  cases t with
  | timer => cases l <;> rfl
  | fileChange => cases l <;> rfl
  | watchError m => simp [Trigger.isReload] at h
  | shutdown => simp [Trigger.isReload] at h

theorem reload_advance (r : Reloader) (l : Except Fault Generation) :
    Advance r 1 (if l.isOk then 0 else 1) (l.toOption.getD r.store.current)
      (r.reload (l.mapError .fault)).1 := by
  cases l with
  | ok g => exact ⟨rfl, rfl, rfl, rfl, rfl⟩
  | error f => exact ⟨rfl, rfl, rfl, rfl, rfl⟩

theorem reload_loop (r : Reloader) (l : Except Fault Generation) :
    (r.reload (l.mapError .fault)).1.reloader.loop = r.loop := by
  cases l <;> rfl

theorem advance_events (h : Advance r n k g c) (es : List Event) :
    Advance r n k g { c with events := es } := ⟨h.1, h.2, h.3, h.4, h.5⟩

theorem loads_cons_reload (h : a.trigger.isReload = true) :
    loads (a :: as) = a.loaded :: loads as := by
  have hs : a.trigger ≠ .shutdown := by
    intro he
    simp [he, Trigger.isReload] at h
  simp [loads, hs, h]

theorem latest?_cons_reload (h : a.trigger.isReload = true) (g : Generation) :
    (latest? (a :: as)).getD g = (latest? as).getD (a.loaded.toOption.getD g) := by
  simp only [latest?, loads_cons_reload h]
  cases hl : a.loaded with
  | ok g' => simp [Except.toOption, List.getLast?_cons]
  | error f => simp [Except.toOption]

theorem failures_cons_reload (h : a.trigger.isReload = true) :
    failures (a :: as) = (if a.loaded.isOk then 0 else 1) + failures as := by
  simp only [failures, loads_cons_reload h, List.countP_cons]
  cases a.loaded <;> simp [Except.isOk, Except.toBool, Nat.add_comm]

theorem loads_cons_other (h : a.trigger.isReload = false) (hs : a.trigger ≠ .shutdown) :
    loads (a :: as) = loads as := by
  simp [loads, h, hs]

/-- From a loop that runs, a row of arrivals makes the reloads that are due in it. -/
theorem run_advance (h : r.loop = .running) (as : List (Arrival Fault)) :
    Advance r (loads as).length (failures as) ((latest? as).getD r.store.current)
      (r.run (as.map .answered)) := by
  induction as generalizing r with
  | nil => exact advance_none r []
  | cons a rest ih =>
    simp only [List.map_cons, Reloader.run, handle_running h]
    by_cases hr : a.trigger.isReload = true
    · have hstep := step_reload (r := r) hr
      have hgo := advance_events (reload_advance r a.loaded)
        (Reloader.triggeredEvent a.trigger :: (r.reload a.answered.loaded).1.events)
      have hloop := (reload_loop r a.loaded).trans h
      have hrest := advance_before hgo (ih (by simpa using hloop))
      rw [failures_cons_reload hr, latest?_cons_reload hr, loads_cons_reload hr, List.length_cons,
        Nat.add_comm (loads rest).length]
      rw [hgo.current] at hrest
      change Advance r _ _ _ ((r.step a.trigger a.answered.loaded).before
        ((r.step a.trigger a.answered.loaded).reloader.run _))
      rw [hstep]
      exact hrest
    · cases ha : a.trigger with
      | timer => simp [ha, Trigger.isReload] at hr
      | fileChange => simp [ha, Trigger.isReload] at hr
      | watchError m =>
        have hl : loads (a :: rest) = loads rest := loads_cons_other (by simpa using hr) (by simp [ha])
        have hrest := advance_before (advance_none r [r.watchErrorEvent m]) (ih h)
        simpa [Arrival.answered, ha, Reloader.step, failures, latest?, hl] using hrest
      | shutdown =>
        have hl : loads (a :: rest) = [] := by simp [loads, ha]
        simp only [Arrival.answered, ha, Reloader.step, failures, latest?, hl]
        rw [run_stopped (by simp)]
        exact ⟨rfl, rfl, rfl, rfl, rfl⟩

theorem step_loop (h : r.loop = .running) (ha : a.trigger ≠ .shutdown) :
    (r.step a.trigger a.answered.loaded).reloader.loop = .running := by
  by_cases hr : a.trigger.isReload = true
  · rw [step_reload hr]
    exact (reload_loop r a.loaded).trans h
  · cases ht : a.trigger with
    | timer => simp [ht, Trigger.isReload] at hr
    | fileChange => simp [ht, Trigger.isReload] at hr
    | watchError m => exact h
    | shutdown => exact (ha ht).elim

/-- A loop runs on until its first shutdown. -/
theorem run_loop (h : r.loop = .running) (as : List (Arrival Fault)) :
    (r.run (as.map .answered)).reloader.loop = .running ↔ ¬ HasShutdown as := by
  induction as generalizing r with
  | nil => simp [Reloader.run, HasShutdown, h]
  | cons a rest ih =>
    simp only [List.map_cons, Reloader.run, handle_running h, Change.before]
    by_cases ha : a.trigger = .shutdown
    · have hd : HasShutdown (a :: rest) := ⟨a, by simp, ha⟩
      simp only [Arrival.answered, ha, Reloader.step, hd]
      rw [run_stopped (by simp)]
      simp
    · have hd : HasShutdown (a :: rest) ↔ HasShutdown rest := by simp [HasShutdown, ha]
      rw [hd]
      exact ih (step_loop h ha)

/-- What is true where a run has led. -/
structure Accounts (start : Store) (as : List (Arrival Fault)) (c : Change) : Prop where
  reloads : c.reloader.reloads = (loads as).length
  reloadErrors : c.reloader.reloadErrors = failures as
  number : c.reloader.store.number =
    start.number + (c.reloader.reloads - c.reloader.reloadErrors)
  counts : c.counts =
    { Metrics.zero with
      reloads := c.reloader.reloads
      reloadErrors := c.reloader.reloadErrors }
  current : c.reloader.store.current = (latest? as).getD start.current

/-- What is true of the change that the next arrival makes there. -/
structure NextChange (r : Reloader) (stopped : Prop) (a : Arrival Fault) (c : Change) : Prop where
  ignored : stopped → c = ⟨r, .zero, []⟩
  watchError : ∀ m, ¬ stopped → a.trigger = .watchError m →
    c = ⟨r, .zero, [r.watchErrorEvent m]⟩
  reload : ¬ stopped → a.trigger.isReload = true →
    c = let change := (r.reload a.answered.loaded).1
      { change with events := Reloader.triggeredEvent a.trigger :: change.events }
  counted : ¬ stopped → a.trigger.isReload = true → c.reloader.reloads = r.reloads + 1
  shutdown : ¬ stopped → a.trigger = .shutdown →
    c = ⟨{ r with loop := .idle }, .zero, [r.stoppedEvent]⟩
  failed : ∀ f, a.loaded = .error f → c.reloader.store = r.store

theorem accounts_of_advance {start : Store} (hn : r.reloads = 0) (hk : r.reloadErrors = 0)
    (hs : r.store = start)
    (h : Advance r (loads as).length (failures as) ((latest? as).getD r.store.current) c) :
    Accounts start as c := by
  have hreloads : c.reloader.reloads = (loads as).length := by simpa [hn] using h.reloads
  have herrors : c.reloader.reloadErrors = failures as := by simpa [hk] using h.reloadErrors
  have hle : failures as ≤ (loads as).length := List.countP_le_length
  subst hs
  refine ⟨hreloads, herrors, ?_, ?_, h.current⟩
  · have := h.number
    rw [hreloads, herrors]
    omega
  · rw [hreloads, herrors]
    exact h.counts

theorem step_store_of_fault {f : Fault} (h : a.loaded = .error f) :
    (r.step a.trigger a.answered.loaded).reloader.store = r.store := by
  obtain ⟨t, l⟩ := a
  cases h
  cases t <;> rfl

theorem nextChange_running (h : r.loop = .running) (a : Arrival Fault) :
    NextChange r False a (r.handle a.trigger a.answered.loaded) := by
  rw [handle_running h]
  refine ⟨False.elim, ?_, ?_, ?_, ?_, ?_⟩
  · intro m _ ha
    rw [ha]
    rfl
  · intro _ hr
    exact step_reload hr
  · intro _ hr
    rw [step_reload hr]
    exact (reload_advance r a.loaded).reloads
  · intro _ ha
    rw [ha]
    rfl
  · intro f hf
    exact step_store_of_fault hf

theorem nextChange_stopped (h : r.loop ≠ .running) (a : Arrival Fault) :
    NextChange r True a (r.handle a.trigger a.answered.loaded) := by
  rw [handle_stopped h]
  exact ⟨fun _ => rfl, fun _ h => (h trivial).elim, fun h => (h trivial).elim,
    fun h => (h trivial).elim, fun h => (h trivial).elim, fun _ _ => rfl⟩

theorem nextChange_run (h : r.loop = .running) (as : List (Arrival Fault)) (a : Arrival Fault) :
    let s := (r.run (as.map .answered)).reloader
    NextChange s (HasShutdown as) a (s.handle a.trigger a.answered.loaded) := by
  intro s
  by_cases hd : HasShutdown as
  · rw [eq_true hd]
    exact nextChange_stopped (fun hs => (run_loop h as).mp hs hd) a
  · rw [eq_false hd]
    exact nextChange_running ((run_loop h as).mpr hd) a

theorem create?_eq {path : Path} {interval : Binary64} {watches : Bool} {start : Store}
    (h : Reloader.create? path interval watches start = some r) :
    r = ⟨path, interval, watches, start, 0, 0, .idle⟩ := by
  unfold Reloader.create? at h
  split at h
  · cases h
  · exact (Option.some.inj h).symm

theorem start?_eq {waiting : Binary64} (h : r.start? waiting = some c) :
    c.reloader = { r with interval := waiting, loop := .running } := by
  unfold Reloader.start? at h
  split at h
  · cases h
  · cases h
    rfl

/-- A fresh reloader that is started keeps its accounts whatever arrives and whatever the loads give, and
each arrival makes just the change that its trigger asks for. -/
theorem run_accounts {path : Path} {interval waiting : Binary64} {watches : Bool} {start : Store}
    (hr : Reloader.create? path interval watches start = some r)
    (hc : r.start? waiting = some c) (as : List (Arrival Fault)) :
    let before := c.reloader.run (as.map .answered)
    Accounts start as before ∧
      ∀ a : Arrival Fault,
        let next := before.reloader.handle a.trigger a.answered.loaded
        NextChange before.reloader (HasShutdown as) a next ∧
          c.reloader.run ((as ++ [a]).map .answered) = before.before next := by
  have hfresh := create?_eq hr
  have hstart := start?_eq hc
  have hrun : c.reloader.loop = .running := by rw [hstart]
  intro before
  constructor
  · apply accounts_of_advance _ _ _ (run_advance hrun as) <;> rw [hstart, hfresh]
  · intro a next
    refine ⟨nextChange_run hrun as a, ?_⟩
    rw [List.map_append, Reloader.run_append]
    exact congrArg before.before (Reloader.run_singleton _ _)

/-- A load that succeeds, one that fails, a disturbed watch, and a shutdown. -/
def mixedArrivals : List (Arrival Fault) :=
  [⟨.fileChange, .ok .empty⟩, ⟨.timer, .error (.notMapping "list")⟩,
    ⟨.watchError "gone", .ok .empty⟩, ⟨.shutdown, .ok .empty⟩]

/-- A fresh reloader of an empty store, and the change that starts it. -/
def freshReloader : Reloader :=
  ⟨⟨"", ["config.yaml"]⟩, .finite false 300 0, true, .empty, 0, 0, .idle⟩

def freshStart : Change :=
  ⟨{ freshReloader with loop := .running }, .zero, [freshReloader.startedEvent]⟩

theorem run_mixedArrivals :
    (freshStart.reloader.run (mixedArrivals.map .answered)).reloader.store = ⟨.empty, 1⟩ ∧
      Accounts .empty mixedArrivals (freshStart.reloader.run (mixedArrivals.map .answered)) := by
  have hr : Reloader.create? freshReloader.path freshReloader.interval true .empty =
      some freshReloader := rfl
  have hc : freshReloader.start? freshReloader.interval = some freshStart := rfl
  exact ⟨rfl, (run_accounts hr hc mixedArrivals).1⟩

end CeilingGate.Reload
