import CeilingGate.Service.Health
import Mathlib.Data.List.Induction

/-! Decisions, publications and health reports that share a store, interleaved in any way. A step accesses
the store at most once. Each list of actions is a schedule, and its prefixes are the moments of it. -/
namespace CeilingGate.Service

open CeilingGate.Admission CeilingGate.Policy CeilingGate.Workload

/-- A generation with the moment at which it was loaded. -/
structure Loaded where
  generation : Generation
  loadedAt : Moment
deriving DecidableEq, Repr

/-- The store, with the moment at which its generation was loaded. -/
structure Shared where
  store : Store
  loadedAt : Moment
deriving DecidableEq, Repr

def Shared.current (sh : Shared) : Loaded := ⟨sh.store.current, sh.loadedAt⟩

def Shared.publish (sh : Shared) (l : Loaded) : Loaded × Shared :=
  let (previous, store) := sh.store.publish l.generation
  (⟨previous, sh.loadedAt⟩, ⟨store, l.loadedAt⟩)

abbrev Outcome := Except (Stop Workload.Fault) (Option Denial)

/-- How far a decision has come. -/
inductive Decision
  | asked
  | decoded (s : Snapshot)
  | informed (s : Snapshot) (g : Generation)
  | made (outcome : Outcome)

/-- The first step of a decision, which needs no policy and may settle it. -/
def Decision.start (r : Request) : Decision :=
  if !isChecked r.operation then .made (.ok none)
  else
    let kind := Kind.ofName r.kind.kind
    if kind == .unrecognised then .made (.ok none)
    else
      match decode kind r.object (requestedTarget r) with
      | .ok s => .decoded s
      | .error stop => .made (.error stop)

def Decision.advance (r : Request) (store : Store) : Decision → Decision
  | .asked => start r
  | .decoded s => .informed s store.current
  | .informed s g => .made (.ok (judge g s))
  | .made outcome => .made outcome

/-- What a health report says of the active policy, with the moment at which it was loaded. -/
structure DatedReport where
  policy : PolicyReport
  loadedAt : Moment
deriving DecidableEq, Repr

/-- How far a health report has come. It reads the generation before the number. -/
inductive Reading
  | begun
  | looked (l : Loaded)
  | done (report : DatedReport)
deriving DecidableEq, Repr

def Reading.advance (sh : Shared) : Reading → Reading
  | .begun => .looked sh.current
  | .looked l => .done ⟨⟨sh.store.number, l.generation.source?⟩, l.loadedAt⟩
  | .done report => .done report

inductive Task
  | decision (r : Request) (phase : Decision)
  | publication (l : Loaded) (returned? : Option Loaded)
  | report (phase : Reading)

/-- One step of a task. Publishing is one step. -/
def Task.advance (sh : Shared) : Task → Task × Shared
  | .decision r phase => (.decision r (phase.advance r sh.store), sh)
  | .publication l none =>
    let (previous, sh) := sh.publish l
    (.publication l (some previous), sh)
  | .publication l (some previous) => (.publication l (some previous), sh)
  | .report phase => (.report (phase.advance sh), sh)

/-- What can be begun. -/
inductive Job
  | decide (r : Request)
  | publish (l : Loaded)
  | report

def Job.task : Job → Task
  | .decide r => .decision r .asked
  | .publish l => .publication l none
  | .report => .report .begun

structure System where
  shared : Shared
  tasks : List Task

inductive Action
  | begin (job : Job)
  | advance (i : Nat)

/-- A generation that was published, and the one that it replaced. -/
structure Publication where
  returned : Loaded
  published : Loaded
deriving DecidableEq, Repr

/-- The publication that a task has made. -/
def Task.publication? : Task → Option Publication
  | .publication l (some previous) => some ⟨previous, l⟩
  | _ => none

namespace System

def start (sh : Shared) : System := ⟨sh, []⟩

def step (s : System) : Action → System
  | .begin job => { s with tasks := s.tasks ++ [job.task] }
  | .advance i =>
    match s.tasks[i]? with
    | some t =>
      let (t, shared) := t.advance s.shared
      ⟨shared, s.tasks.set i t⟩
    | none => s

def run (s : System) (as : List Action) : System := as.foldl step s

/-- The publications that the tasks have made. -/
def finished (s : System) : List Publication := s.tasks.filterMap Task.publication?

/-- The publication that an action makes. -/
def publication? (s : System) : Action → Option Publication
  | .begin _ => none
  | .advance i =>
    match s.tasks[i]? with
    | some (.publication l none) => some ⟨(s.shared.publish l).1, l⟩
    | _ => none

/-- The publications of a run, in the order in which they are made. -/
def publications (s : System) : List Action → List Publication
  | [] => []
  | a :: as => (s.publication? a).toList ++ publications (s.step a) as

variable {s : System} {a : Action} {as before after : List Action} {i : Nat} {t : Task} {l : Loaded}

@[simp] theorem run_nil : s.run [] = s := rfl

@[simp] theorem run_cons : s.run (a :: as) = (s.step a).run as := rfl

theorem run_append : s.run (before ++ after) = (s.run before).run after := List.foldl_append

theorem run_snoc : s.run (as ++ [a]) = (s.run as).step a := by simp [run_append]

theorem publications_append :
    s.publications (before ++ after) = s.publications before ++ (s.run before).publications after := by
  induction before generalizing s with
  | nil => rfl
  | cons a rest ih => simp [publications, ih]

theorem step_advance (h : s.tasks[i]? = some t) :
    s.step (.advance i) = ⟨(t.advance s.shared).2, s.tasks.set i (t.advance s.shared).1⟩ := by
  simp [step, h]

theorem step_absent (h : s.tasks[i]? = none) : s.step (.advance i) = s := by
  simp [step, h]

/-- A task is as it was before an action, or has just begun, or has gone one step further. -/
theorem task_step (h : (s.step a).tasks[i]? = some t) :
    s.tasks[i]? = some t ∨ (∃ job, t = Job.task job) ∨
      ∃ t', s.tasks[i]? = some t' ∧ t = (t'.advance s.shared).1 := by
  cases a with
  | begin job =>
    rw [step, List.getElem?_append] at h
    split at h
    · exact Or.inl h
    · have hjob := List.mem_singleton.mp (List.mem_of_getElem? h)
      exact Or.inr (Or.inl ⟨job, hjob⟩)
  | advance j =>
    cases hj : s.tasks[j]? with
    | none => exact Or.inl (step_absent hj ▸ h)
    | some t' =>
      rw [step_advance hj, List.getElem?_set] at h
      split at h
      · next he =>
        split at h
        · cases h
          exact Or.inr (Or.inr ⟨t', he ▸ hj, rfl⟩)
        · cases h
      · exact Or.inl h

/-- An action leaves what is shared alone, or publishes a generation. -/
theorem shared_step (s : System) (a : Action) :
    (s.publication? a = none ∧ (s.step a).shared = s.shared) ∨
      ∃ l, s.publication? a = some ⟨s.shared.current, l⟩ ∧ (s.step a).shared.current = l ∧
        (s.step a).shared.store.number = s.shared.store.number + 1 := by
  cases a with
  | begin job => exact Or.inl ⟨rfl, rfl⟩
  | advance i =>
    cases h : s.tasks[i]? with
    | none => exact Or.inl ⟨by simp [publication?, h], by rw [step_absent h]⟩
    | some t =>
      rw [step_advance h]
      simp only [publication?, h]
      cases t with
      | decision r phase => exact Or.inl ⟨rfl, rfl⟩
      | publication l returned? =>
        cases returned? with
        | none => exact Or.inr ⟨l, rfl, rfl, rfl⟩
        | some previous => exact Or.inl ⟨rfl, rfl⟩
      | report phase => exact Or.inl ⟨rfl, rfl⟩

/-- Replacing a task that has made no publication adds what the new one has made. -/
theorem finished_set {t' : Task} (h : s.tasks[i]? = some t) (ht : t.publication? = none) :
    ((s.tasks.set i t').filterMap Task.publication?).Perm (s.finished ++ t'.publication?.toList) := by
  obtain ⟨hi, rfl⟩ := List.getElem?_eq_some_iff.mp h
  have hsplit : s.finished = (s.tasks.take i).filterMap Task.publication? ++
      (s.tasks.drop (i + 1)).filterMap Task.publication? := by
    unfold finished
    conv_lhs => rw [← List.take_append_drop i s.tasks, List.drop_eq_getElem_cons hi]
    rw [List.filterMap_append, List.filterMap_cons_none ht]
  rw [hsplit, List.set_eq_take_append_cons_drop, if_pos hi, List.filterMap_append, List.append_assoc]
  refine List.Perm.append_left _ ?_
  cases hp : t'.publication? with
  | none => simp [List.filterMap_cons_none hp]
  | some p =>
    rw [List.filterMap_cons_some hp]
    exact (List.perm_append_singleton _ _).symm

/-- A publication is made by the task that then has made it. -/
theorem finished_step (s : System) (a : Action) :
    (s.step a).finished.Perm (s.finished ++ (s.publication? a).toList) := by
  cases a with
  | begin job =>
    have hjob : job.task.publication? = none := by cases job <;> rfl
    simp [step, finished, publication?, hjob]
  | advance i =>
    cases h : s.tasks[i]? with
    | none => simp [step_absent h, publication?, h]
    | some t =>
      rw [step_advance h]
      simp only [publication?, h]
      cases t with
      | decision r phase => exact finished_set h rfl
      | publication l returned? =>
        cases returned? with
        | none => exact finished_set h rfl
        | some previous =>
          obtain ⟨hi, ht⟩ := List.getElem?_eq_some_iff.mp h
          have hsame : s.tasks.set i (.publication l (some previous)) = s.tasks := by
            rw [← ht, List.set_getElem_self]
          simp [finished, Task.advance, hsame]
      | report phase => exact finished_set h rfl

/-- The generations that publications return are the ones that were current before them. -/
theorem publications_chain (s : System) (as : List Action) :
    (s.publications as).map (·.returned) ++ [(s.run as).shared.current] =
      s.shared.current :: (s.publications as).map (·.published) := by
  induction as generalizing s with
  | nil => rfl
  | cons a rest ih =>
    rw [run_cons, publications]
    obtain ⟨hnone, hsame⟩ | ⟨l, hsome, hl, _⟩ := shared_step s a
    · simpa [hnone, hsame] using ih (s.step a)
    · simpa [hsome, hl] using ih (s.step a)

theorem number_run (s : System) (as : List Action) :
    (s.run as).shared.store.number = s.shared.store.number + (s.publications as).length := by
  induction as generalizing s with
  | nil => rfl
  | cons a rest ih =>
    rw [run_cons, publications, ih]
    obtain ⟨hnone, hsame⟩ | ⟨l, hsome, _, hnumber⟩ := shared_step s a
    · simp [hnone, hsame]
    · simp [hsome, hnumber]
      omega

theorem finished_run (s : System) (as : List Action) :
    (s.run as).finished.Perm (s.finished ++ s.publications as) := by
  induction as generalizing s with
  | nil => simp [publications]
  | cons a rest ih =>
    rw [run_cons, publications, ← List.append_assoc]
    exact (ih _).trans ((finished_step s a).append_right _)

end System

end CeilingGate.Service
