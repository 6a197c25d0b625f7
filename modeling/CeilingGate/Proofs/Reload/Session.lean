import CeilingGate.Proofs.Reload.Accounts
import Mathlib.Logic.Relation

/-! One run of the reload loop among the tasks beside it. The watch puts news into a queue; each wait has
a get of its own and a task that looks out for the stop; a reload goes on in a thread. A wait that is over
goes by the tasks that are done, and a get that is given up takes nothing out of the queue. Main statement:
whatever the order of the steps, the run makes the changes that the loop makes over the triggers that it
has handled. -/
namespace CeilingGate.Reload

open CeilingGate.Policy

/-- What the watch has to tell. -/
inductive News
  | fileChange
  | watchError (message : String)
deriving DecidableEq, Repr

/-- News as they are put into the queue, numbered from zero. -/
structure Item where
  number : Nat
  news : News
deriving DecidableEq, Repr

/-- The get of a wait. It begins before the wait can be over, and then has either taken an item or found
the queue empty. -/
inductive Get
  | new
  | waiting
  | done (i : Item)
deriving DecidableEq, Repr

def Get.item? : Get → Option Item
  | .done i => some i
  | .new | .waiting => none

/-- What ends a wait. -/
inductive Selected
  | timer
  | shutdown
  | item (i : Item)
deriving DecidableEq, Repr

/-- What a reload is made for. -/
inductive Cause
  | timer
  | change (number : Nat)
deriving DecidableEq, Repr

namespace Cause

def trigger : Cause → Trigger
  | timer => .timer
  | change _ => .fileChange

def item? : Cause → Option Item
  | timer => none
  | change n => some ⟨n, .fileChange⟩

end Cause

/-- Where the loop stands. A reload that has been called begins when the thread gets to it. What a get
had taken when the loop ended stays with it. -/
inductive Phase
  | waiting (get : Get) (seesStop : Bool)
  | called (c : Cause)
  | loading (c : Cause)
  | publishing (c : Cause) (g : Generation)
  | ended (left? : Option Item)

namespace Phase

def newWait : Phase := .waiting .new false

/-- The item that has been taken out of the queue and is still to be handled. -/
def held? : Phase → Option Item
  | .waiting get _ => get.item?
  | .called c => c.item?
  | .ended left? => left?
  | .loading _ | .publishing _ _ => none

end Phase

/-- What is put down in the log of a run. -/
inductive Happening
  | put (i : Item)
  | selected (s : Selected)
  | began (c : Cause)
  | loaded (c : Cause) (result : Except Fault Generation)
  | published (c : Cause) (g : Generation)

/-! ## A reload in its parts -/

namespace Reloader

variable (r : Reloader)

def triggered (c : Cause) : Change := ⟨r, .zero, [triggeredEvent c.trigger]⟩

def begun : Change := ⟨{ r with reloads := r.reloads + 1 }, .oneReload, []⟩

def failed (f : Fault) : Change :=
  ⟨{ r with reloadErrors := r.reloadErrors + 1 }, .oneReloadError, [r.faultEvent f]⟩

def parsed (g : Generation) : Change := ⟨r, .zero, [g.parsedEvent]⟩

def published (g : Generation) : Change :=
  let r := { r with store := (r.store.publish g).2 }
  ⟨r, .zero, [r.store.publishedEvent, r.reloadedEvent]⟩

/-- A trigger whose reload has begun. -/
def reloading (c : Cause) : Change := (r.triggered c).before r.begun

theorem step_eq_failed (c : Cause) (f : Fault) :
    r.step c.trigger (.error (.fault f)) = (r.reloading c).before ((r.reloading c).reloader.failed f) := by
  cases c <;> rfl

theorem step_eq_published (c : Cause) (g : Generation) :
    r.step c.trigger (.ok g) =
      ((r.reloading c).before ((r.reloading c).reloader.parsed g)).before
        ((r.reloading c).reloader.published g) := by
  cases c <;> rfl

end Reloader

/-! ## Steps -/

structure Session where
  made : Change
  queue : List Item
  isStopped : Bool
  phase : Phase
  log : List Happening

def Happening.put? : Happening → Option Item
  | .put i => some i
  | _ => none

/-- What has been put into the queue, in order. -/
def puts (log : List Happening) : List Item := log.filterMap Happening.put?

namespace Session

def start (r : Reloader) : Session := ⟨⟨r, .zero, []⟩, [], false, .newWait, []⟩

def put (s : Session) (news : News) : Session :=
  let i : Item := ⟨(puts s.log).length, news⟩
  { s with queue := s.queue ++ [i], log := s.log ++ [.put i] }

/-- The loop goes on to a phase. -/
def advance (s : Session) (phase : Phase) (change : Change) (e : Happening) : Session :=
  { s with made := s.made.before change, phase := phase, log := s.log ++ [e] }

/-- The end of a wait: the get is given up unless it is done, and the queue is left as it is. -/
def select (s : Session) (get : Get) (seesStop : Bool) : Session :=
  let selected := (next seesStop Selected.timer .shutdown (get.item?.toList.map .item)).1
  let r := s.made.reloader
  match selected with
  | .shutdown =>
    s.advance (.ended get.item?) ⟨{ r with loop := .idle }, .zero, [r.stoppedEvent]⟩ (.selected selected)
  | .timer => s.advance (.called .timer) (r.triggered .timer) (.selected selected)
  | .item ⟨n, .fileChange⟩ =>
    s.advance (.called (.change n)) (r.triggered (.change n)) (.selected selected)
  | .item ⟨_, .watchError message⟩ =>
    s.advance .newWait ⟨r, .zero, [r.watchErrorEvent message]⟩ (.selected selected)

/-- One step of the watch, of whoever stops the loop, of the tasks of a wait, of the loop, or of the thread
that reloads. -/
inductive Step : Session → Session → Prop
  | put (s : Session) (news : News) : Step s (s.put news)
  | stop (s : Session) : Step s { s with isStopped := true }
  | find {s : Session} {seesStop : Bool} (h : s.phase = .waiting .new seesStop) (hq : s.queue = []) :
      Step s { s with phase := .waiting .waiting seesStop }
  | take {s : Session} {get : Get} {seesStop : Bool} {i : Item} {rest : List Item}
      (h : s.phase = .waiting get seesStop) (hg : get.item? = none) (hq : s.queue = i :: rest) :
      Step s { s with queue := rest, phase := .waiting (.done i) seesStop }
  | seeStop {s : Session} {get : Get} (h : s.phase = .waiting get false) (hs : s.isStopped = true) :
      Step s { s with phase := .waiting get true }
  | select {s : Session} {get : Get} {seesStop : Bool} (h : s.phase = .waiting get seesStop)
      (hg : get ≠ .new) : Step s (s.select get seesStop)
  | begin {s : Session} {c : Cause} (h : s.phase = .called c) :
      Step s (s.advance (.loading c) s.made.reloader.begun (.began c))
  | fail {s : Session} {c : Cause} (h : s.phase = .loading c) (f : Fault) :
      Step s (s.advance .newWait (s.made.reloader.failed f) (.loaded c (.error f)))
  | parse {s : Session} {c : Cause} (h : s.phase = .loading c) (g : Generation) :
      Step s (s.advance (.publishing c g) (s.made.reloader.parsed g) (.loaded c (.ok g)))
  | publish {s : Session} {c : Cause} {g : Generation} (h : s.phase = .publishing c g) :
      Step s (s.advance .newWait (s.made.reloader.published g) (.published c g))

/-- Any number of steps, in any order that the tasks allow. -/
abbrev Steps : Session → Session → Prop := Relation.ReflTransGen Step

variable {s t : Session} {get : Get} {seesStop : Bool}

/-- What each step keeps is kept along a run. -/
theorem keep {P : Session → Prop} (hstep : ∀ {s t}, Step s t → P s → P t) (h : Steps s t) (hs : P s) :
    P t := by
  induction h with
  | refl => exact hs
  | tail _ hlast ih => exact hstep hlast ih

/-- A wait ends with the stop if it has been seen, else with the item of the get, else with the timer. -/
theorem select_cases (s : Session) (get : Get) (seesStop : Bool) :
    (seesStop = true ∧ s.select get seesStop =
        s.advance (.ended get.item?)
          ⟨{ s.made.reloader with loop := .idle }, .zero, [s.made.reloader.stoppedEvent]⟩
          (.selected .shutdown)) ∨
      (get.item? = none ∧ s.select get seesStop =
        s.advance (.called .timer) (s.made.reloader.triggered .timer) (.selected .timer)) ∨
      (∃ n, get = .done ⟨n, .fileChange⟩ ∧ s.select get seesStop =
        s.advance (.called (.change n)) (s.made.reloader.triggered (.change n))
          (.selected (.item ⟨n, .fileChange⟩))) ∨
      ∃ n message, get = .done ⟨n, .watchError message⟩ ∧ s.select get seesStop =
        s.advance .newWait ⟨s.made.reloader, .zero, [s.made.reloader.watchErrorEvent message]⟩
          (.selected (.item ⟨n, .watchError message⟩)) := by
  cases seesStop with
  | true => exact Or.inl ⟨rfl, rfl⟩
  | false =>
    cases get with
    | new | waiting => exact Or.inr (Or.inl ⟨rfl, rfl⟩)
    | done i =>
      obtain ⟨n, news⟩ := i
      cases news with
      | fileChange => exact Or.inr (Or.inr (Or.inl ⟨n, rfl, rfl⟩))
      | watchError message => exact Or.inr (Or.inr (Or.inr ⟨n, message, rfl, rfl⟩))

/-- A step adds at most one entry to the log. -/
theorem log_step (h : Step s t) : t.log = s.log ∨ ∃ e, t.log = s.log ++ [e] := by
  cases h with
  | put news => exact Or.inr ⟨_, rfl⟩
  | stop | find | take | seeStop => exact Or.inl rfl
  | @select get seesStop h hg =>
    obtain ⟨_, he⟩ | ⟨_, he⟩ | ⟨n, _, he⟩ | ⟨n, message, _, he⟩ := select_cases s get seesStop <;>
      exact Or.inr ⟨_, by rw [he]; rfl⟩
  | begin | fail | parse | publish => exact Or.inr ⟨_, rfl⟩

theorem log_steps (h : Steps s t) : s.log <+: t.log := by
  refine keep (P := fun t => s.log <+: t.log) ?_ h List.prefix_rfl
  intro t u hstep ht
  obtain he | ⟨e, he⟩ := log_step hstep
  · rw [he]
    exact ht
  · rw [he]
    exact ht.trans (List.prefix_append _ _)

/-- A run sees or takes the stop only if it has been stopped. -/
structure StopsRightly (s : Session) : Prop where
  seen : ∀ get, s.phase = .waiting get true → s.isStopped = true
  taken : .selected .shutdown ∈ s.log → s.isStopped = true

theorem stopsRightly_step (h : Step s t) (hs : StopsRightly s) : StopsRightly t := by
  cases h with
  | put news => exact ⟨hs.seen, fun hmem => hs.taken (by simpa [put] using hmem)⟩
  | stop => exact ⟨fun _ _ => rfl, fun _ => rfl⟩
  | find h | take h =>
    refine ⟨fun get hget => ?_, hs.taken⟩
    obtain ⟨_, rfl⟩ := Phase.waiting.inj hget
    exact hs.seen _ h
  | seeStop h hstop => exact ⟨fun _ _ => hstop, fun _ => hstop⟩
  | @select get seesStop h hg =>
    obtain ⟨rfl, he⟩ | ⟨_, he⟩ | ⟨n, _, he⟩ | ⟨n, message, _, he⟩ := select_cases s get seesStop <;> rw [he]
    · exact ⟨nofun, fun _ => hs.seen get h⟩
    all_goals exact ⟨nofun, fun hmem => hs.taken (by simpa [advance] using hmem)⟩
  | begin | fail | parse | publish =>
    exact ⟨nofun, fun hmem => hs.taken (by simpa [advance] using hmem)⟩

theorem stopsRightly_steps {r : Reloader} (h : Steps (start r) s) : StopsRightly s :=
  keep stopsRightly_step h ⟨nofun, nofun⟩

end Session

/-! ## The changes of a run -/

/-- What the loop has handled when something has happened. What is loaded for a trigger without a reload
does not matter. -/
def Happening.arrival? : Happening → Option (Arrival Fault)
  | .selected .shutdown => some ⟨.shutdown, .ok .empty⟩
  | .selected (.item ⟨_, .watchError message⟩) => some ⟨.watchError message, .ok .empty⟩
  | .loaded c (.error f) => some ⟨c.trigger, .error f⟩
  | .published c g => some ⟨c.trigger, .ok g⟩
  | _ => none

def arrivals (log : List Happening) : List (Arrival Fault) := log.filterMap Happening.arrival?

/-- The part of a trigger that has been handled. -/
def Phase.partly (r : Reloader) : Phase → Change
  | .waiting _ _ | .ended _ => ⟨r, .zero, []⟩
  | .called c => r.triggered c
  | .loading c => r.reloading c
  | .publishing c g => (r.reloading c).before ((r.reloading c).reloader.parsed g)

def Phase.hasEnded : Phase → Bool
  | .ended _ => true
  | _ => false

namespace Session

variable {r : Reloader} {s t : Session} {a : Arrival Fault} {e : Happening} {phase : Phase} {change : Change}

/-- The change that the loop makes over what has arrived. -/
def ran (r : Reloader) (log : List Happening) : Change := r.run ((arrivals log).map .answered)

/-- A session has made the changes of the loop over its arrivals, and of the part of a trigger that it is
at. -/
structure Follows (r : Reloader) (s : Session) : Prop where
  made : s.made = (ran r s.log).before (s.phase.partly (ran r s.log).reloader)
  running : s.phase.hasEnded = false → (ran r s.log).reloader.loop = .running

theorem ran_skip (he : e.arrival? = none) (log : List Happening) : ran r (log ++ [e]) = ran r log := by
  simp [ran, arrivals, he]

theorem ran_snoc (he : e.arrival? = some a) {log : List Happening}
    (h : (ran r log).reloader.loop = .running) :
    ran r (log ++ [e]) =
      (ran r log).before ((ran r log).reloader.step a.trigger a.answered.loaded) := by
  have hsnoc : arrivals (log ++ [e]) = arrivals log ++ [a] := by simp [arrivals, he]
  simp only [ran] at h ⊢
  rw [hsnoc, List.map_append, Reloader.run_append, List.map_singleton, Reloader.run_singleton]
  exact congrArg _ (handle_running h _ _)

theorem Follows.reloader (h : Follows r s) :
    s.made.reloader = (s.phase.partly (ran r s.log).reloader).reloader := by
  rw [h.made]
  rfl

/-- The loop goes on with a trigger. -/
theorem Follows.go (h : Follows r s) (he : e.arrival? = none) (hp : s.phase.hasEnded = false)
    (hchange : (s.phase.partly (ran r s.log).reloader).before change =
      phase.partly (ran r s.log).reloader) :
    Follows r (s.advance phase change e) where
  made := by
    simp only [advance, ran_skip he, h.made, Change.before_assoc, hchange]
  running := by
    intro _
    simp only [advance, ran_skip he]
    exact h.running hp

/-- The loop comes to the end of a trigger. -/
theorem Follows.finish (h : Follows r s) (he : e.arrival? = some a) (hp : s.phase.hasEnded = false)
    (hphase : ∀ r, phase.partly r = ⟨r, .zero, []⟩)
    (hchange : (s.phase.partly (ran r s.log).reloader).before change =
      (ran r s.log).reloader.step a.trigger a.answered.loaded)
    (hloop : phase.hasEnded = false → a.trigger ≠ .shutdown) :
    Follows r (s.advance phase change e) where
  made := by
    simp only [advance, ran_snoc he (h.running hp), h.made, Change.before_assoc, hchange, hphase]
    exact congrArg _ (Change.before_none _).symm
  running := by
    intro hended
    simp only [advance, ran_snoc he (h.running hp)]
    exact step_loop (h.running hp) (hloop hended)

/-- A step that logs nothing leaves the loop where it is among its triggers. -/
theorem Follows.stay (h : Follows r s) (hmade : t.made = s.made) (hlog : ran r t.log = ran r s.log)
    (hpartly : ∀ r, t.phase.partly r = s.phase.partly r)
    (hended : t.phase.hasEnded = s.phase.hasEnded) : Follows r t where
  made := by rw [hmade, hlog, hpartly, h.made]
  running := by
    intro ht
    rw [hlog]
    exact h.running (hended ▸ ht)

theorem follows_step (h : Step s t) (hs : Follows r s) : Follows r t := by
  have hreloader := hs.reloader
  cases h with
  | put news => exact hs.stay rfl (ran_skip rfl _) (fun _ => rfl) rfl
  | stop => exact hs.stay rfl rfl (fun _ => rfl) rfl
  | find h | take h | seeStop h =>
    exact hs.stay rfl rfl (by simp [h, Phase.partly]) (by simp [h, Phase.hasEnded])
  | @select get seesStop h hg =>
    rw [h] at hreloader
    have hopen : s.phase.hasEnded = false := by rw [h]; rfl
    obtain ⟨_, he⟩ | ⟨_, he⟩ | ⟨n, _, he⟩ | ⟨n, message, _, he⟩ := select_cases s get seesStop <;> rw [he]
    · refine hs.finish (a := ⟨.shutdown, .ok .empty⟩) rfl hopen (fun _ => rfl) ?_ (by simp [Phase.hasEnded])
      rw [h, hreloader]
      exact Change.none_before _ _
    · refine hs.go rfl hopen ?_
      rw [h, hreloader]
      exact Change.none_before _ _
    · refine hs.go rfl hopen ?_
      rw [h, hreloader]
      exact Change.none_before _ _
    · refine hs.finish (a := ⟨.watchError message, .ok .empty⟩) rfl hopen (fun _ => rfl) ?_ (by simp)
      rw [h, hreloader]
      exact Change.none_before _ _
  | begin h =>
    rw [h] at hreloader
    refine hs.go rfl (by rw [h]; rfl) ?_
    rw [h, hreloader]
    rfl
  | @fail c h f =>
    rw [h] at hreloader
    refine hs.finish (a := ⟨c.trigger, .error f⟩) rfl (by rw [h]; rfl) (fun _ => rfl) ?_
      (fun _ => by cases c <;> simp [Cause.trigger])
    rw [h, hreloader]
    exact (Reloader.step_eq_failed _ c f).symm
  | parse h g =>
    rw [h] at hreloader
    refine hs.go rfl (by rw [h]; rfl) ?_
    rw [h, hreloader]
    rfl
  | @publish c g h =>
    rw [h] at hreloader
    refine hs.finish (a := ⟨c.trigger, .ok g⟩) rfl (by rw [h]; rfl) (fun _ => rfl) ?_
      (fun _ => by cases c <;> simp [Cause.trigger])
    rw [h, hreloader]
    exact (Reloader.step_eq_published _ c g).symm

/-- In every order of the steps, a run makes the changes of the loop over its arrivals. -/
theorem follows_steps (hr : r.loop = .running) (h : Steps (start r) s) : Follows r s :=
  keep follows_step h ⟨rfl, fun _ => hr⟩

end Session

end CeilingGate.Reload
