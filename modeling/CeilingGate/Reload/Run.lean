import CeilingGate.Reload.Reloader

/-! The reload loop over a row of triggers. -/
namespace CeilingGate.Reload

open CeilingGate.Policy

/-- A trigger, with what the policy file gives when it is handled. -/
structure Arrival (ε : Type) where
  trigger : Trigger
  loaded : Except ε Generation

namespace Arrival

/-- An arrival whose load has an answer: a generation or a fault. -/
def answered (a : Arrival Fault) : Arrival (Stop Fault) := ⟨a.trigger, a.loaded.mapError .fault⟩

end Arrival

/-- What two changes add up to, the second one made where the first one led. -/
def Change.before (c d : Change) : Change := ⟨d.reloader, c.counts + d.counts, c.events ++ d.events⟩

theorem Change.before_none (c : Change) : c.before ⟨c.reloader, .zero, []⟩ = c := by
  simp [Change.before]

theorem Change.none_before (r : Reloader) (c : Change) : Change.before ⟨r, .zero, []⟩ c = c := by
  simp [Change.before]

theorem Change.before_assoc (a b c : Change) :
    (a.before b).before c = a.before (b.before c) := by
  simp [Change.before, Metrics.add_assoc, List.append_assoc]

namespace Reloader

/-- Handles arrivals one after the other. -/
def run (r : Reloader) : List (Arrival (Stop Fault)) → Change
  | [] => ⟨r, .zero, []⟩
  | a :: rest =>
    let change := r.handle a.trigger a.loaded
    change.before (change.reloader.run rest)

theorem run_append (r : Reloader) (as bs : List (Arrival (Stop Fault))) :
    r.run (as ++ bs) = (r.run as).before ((r.run as).reloader.run bs) := by
  induction as generalizing r with
  | nil => simp [run, Change.none_before]
  | cons a rest ih =>
    simp only [List.cons_append, run]
    rw [ih, ← Change.before_assoc]
    rfl

theorem run_singleton (r : Reloader) (a : Arrival (Stop Fault)) :
    r.run [a] = r.handle a.trigger a.loaded := Change.before_none _

end Reloader

end CeilingGate.Reload
