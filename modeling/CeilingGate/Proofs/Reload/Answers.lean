import CeilingGate.Proofs.Policy.Answers
import CeilingGate.Proofs.Reload.Accounts

/-! Reloads are answered, and the loop runs on, unless the reader of a policy gives up on its text. -/
namespace CeilingGate.Reload

open CeilingGate.Policy

variable {r : Reloader} {files : Files} {p : Path} {a : Abort} {b : Arrival (Stop Fault)}
  {loaded : Except (Stop Fault) Generation}

/-- The policy at a path cannot be loaded and there is no fault to tell: no file can have the path, or
the reader of policies gives up on the text of the file. -/
def GivesUpAt (files : Files) (p : Path) (a : Abort) : Prop :=
  if p.text.toList.contains '\x00' then a = .badPath
  else ∃ text, files.readText p = .ok text ∧ (Source.text (.plain text)).GivesUp a

theorem load_eq_abort_iff : load files p = .error (.abort a) ↔ GivesUpAt files p a := by
  unfold load GivesUpAt
  split
  · simp [eq_comm]
  · cases files.readText p with
    | ok text => simp [parse_eq_abort_iff]
    | error cause => simp

theorem load_isAnswer_iff : Stop.IsAnswer (load files p) ↔ ¬ ∃ a, GivesUpAt files p a := by
  rw [Stop.isAnswer_iff, not_exists]
  exact forall_congr' fun a => not_congr load_eq_abort_iff

theorem reload_answered_iff :
    (∃ b, (r.reload loaded).2 = .ok b) ↔ Stop.IsAnswer loaded := by
  cases loaded with
  | ok g => simp [Reloader.reload, Stop.IsAnswer]
  | error stop => cases stop <;> simp [Reloader.reload, Stop.IsAnswer]

theorem step_reload_running_iff (h : r.loop = .running) {t : Trigger} (ht : t.isReload = true) :
    (r.step t loaded).reloader.loop = .running ↔ Stop.IsAnswer loaded := by
  cases t with
  | timer | fileChange =>
    cases loaded with
    | ok g => simp [Reloader.step, Reloader.reload, Stop.IsAnswer, h]
    | error stop => cases stop <;> simp [Reloader.step, Reloader.reload, Stop.IsAnswer, h]
  | watchError m => cases ht
  | shutdown => cases ht

/-- A step keeps the loop running unless it is a shutdown or a reload without an answer. -/
theorem step_running_iff (h : r.loop = .running) :
    (r.step b.trigger b.loaded).reloader.loop = .running ↔
      b.trigger ≠ .shutdown ∧ (b.trigger.isReload = true → Stop.IsAnswer b.loaded) := by
  by_cases hr : b.trigger.isReload = true
  · rw [step_reload_running_iff h hr]
    have hs : b.trigger ≠ .shutdown := by
      intro hs
      simp [hs, Trigger.isReload] at hr
    simp [hs, hr]
  · cases ht : b.trigger with
    | timer => simp [ht, Trigger.isReload] at hr
    | fileChange => simp [ht, Trigger.isReload] at hr
    | watchError m => simp [Reloader.step, Trigger.isReload, h]
    | shutdown => simp [Reloader.step]

/-- A loop runs on as long as nothing shuts it down and each of its reloads is answered. -/
theorem run_running_iff (h : r.loop = .running) (bs : List (Arrival (Stop Fault))) :
    (r.run bs).reloader.loop = .running ↔
      ∀ b ∈ bs, b.trigger ≠ .shutdown ∧ (b.trigger.isReload = true → Stop.IsAnswer b.loaded) := by
  induction bs generalizing r with
  | nil => simp [Reloader.run, h]
  | cons b rest ih =>
    have hstep := step_running_iff (b := b) h
    rw [List.forall_mem_cons, ← hstep]
    simp only [Reloader.run, handle_running h, Change.before]
    by_cases hgo : (r.step b.trigger b.loaded).reloader.loop = .running
    · simp [hgo, ih hgo]
    · simp [hgo, run_stopped hgo]

/-- What arrives when a trigger is handled while there are certain files. -/
def visit (p : Path) (v : Trigger × Files) : Arrival (Stop Fault) := ⟨v.1, load v.2 p⟩

/-- A policy is read as a generation or refused with a fault, a reload succeeds or fails, and the loop
runs on until it is shut down: all that exactly if the reader of policies gives up on no text. A text on
which it gives up holds the reason, and a policy with an unreadable scalar in its mappings is never
loaded. -/
theorem answered_iff (s : Source) (source? : Option RawText) (r : Reloader) (files : Files)
    (visits : List (Trigger × Files)) :
    (((∃ g, parse s source? = .ok g) ∨ ∃ f, parse s source? = .error (.fault f)) ↔
      ¬ ∃ a, s.GivesUp a) ∧
    (∀ a, s.GivesUp a → s.Stops a) ∧
    (∀ a, s.HasUnreadable a → ∀ g, parse s source? ≠ .ok g) ∧
    ((∃ b, (r.reload (load files r.path)).2 = .ok b) ↔ ¬ ∃ a, GivesUpAt files r.path a) ∧
    ((({ r with loop := .running }).run (visits.map (visit r.path))).reloader.loop = .running ↔
      ∀ v ∈ visits, v.1 ≠ .shutdown ∧ (v.1.isReload = true → ¬ ∃ a, GivesUpAt v.2 r.path a)) := by
  refine ⟨?_, fun a h => h.stops, fun a h g => parse_ne_ok_of_hasUnreadable h, ?_, ?_⟩
  · rw [← Stop.isAnswer_iff_exists, Stop.isAnswer_iff, not_exists]
    exact forall_congr' fun a => not_congr parse_eq_abort_iff
  · rw [reload_answered_iff, load_isAnswer_iff]
  · rw [run_running_iff rfl, List.forall_mem_map]
    simp only [visit, load_isAnswer_iff]

end CeilingGate.Reload
