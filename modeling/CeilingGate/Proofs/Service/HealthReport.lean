import CeilingGate.Proofs.Service.Interleaving

/-! Which generations a health report speaks of. It reads the generation and its number one after the
other, so the two belong together exactly if the generation of the number has the same source and load
time as the one that was read. -/
namespace CeilingGate.Service

open CeilingGate.Policy

variable {sh : Shared} {a : Action} {as before after : List Action} {i : Nat} {phase : Reading}
  {report : DatedReport} {l : Loaded}

/-- Two steps with nothing in between make a report of the store. -/
theorem report_alone (sh : Shared) :
    (Reading.begun.advance sh).advance sh = .done ⟨.ofStore sh.store, sh.loadedAt⟩ := rfl

/-- What a report says of a generation besides its number. -/
def Loaded.stamp (l : Loaded) : Option RawText × Moment := (l.generation.source?, l.loadedAt)

def DatedReport.stamp (report : DatedReport) : Option RawText × Moment :=
  (report.policy.source?, report.loadedAt)

/-- The generations of a run: the first one and all that are published. -/
def generations (sh : Shared) (as : List Action) : List Loaded :=
  sh.current :: ((System.start sh).publications as).map (·.published)

/-- The generation that has a number. Before the first there is none. -/
def numbered? (sh : Shared) (as : List Action) (n : Nat) : Option Loaded :=
  if sh.store.number ≤ n then (generations sh as)[n - sh.store.number]? else none

/-- The number, the source and the load time of a report are those of one generation. -/
def DatedReport.IsConsistent (sh : Shared) (as : List Action) (report : DatedReport) : Prop :=
  ∃ l, numbered? sh as report.policy.number = some l ∧ l.stamp = report.stamp

/-- A health report has begun and is not done. -/
def IsReporting (s : System) (i : Nat) : Prop :=
  ∃ phase, s.tasks[i]? = some (.report phase) ∧ ∀ report, phase ≠ .done report

/-- At each moment the number of the store is that of the current generation. -/
theorem numbered?_current (h : before <+: as) :
    numbered? sh as ((System.start sh).run before).shared.store.number =
      some ((System.start sh).run before).shared.current := by
  obtain ⟨after, rfl⟩ := h
  have hnumber : ((System.start sh).run before).shared.store.number =
      sh.store.number + ((System.start sh).publications before).length :=
    System.number_run (System.start sh) before
  have hchain : _ = sh.current :: _ := System.publications_chain (System.start sh) before
  have hindex : sh.store.number + ((System.start sh).publications before).length -
      sh.store.number = (((System.start sh).publications before).map (·.returned)).length := by
    simp
  rw [numbered?, hnumber, if_pos (Nat.le_add_right _ _), hindex, generations,
    System.publications_append, List.map_append, ← List.cons_append, ← hchain, List.append_assoc,
    List.getElem?_append_right (Nat.le_refl _)]
  simp

/-- What is true of a health report that has come so far. -/
def Reading.IsExplained (sh : Shared) (as : List Action) (i : Nat) : Reading → Prop
  | .begun => True
  | .looked l => ∃ seen, seen <+: as ∧ IsReporting ((System.start sh).run seen) i ∧
      l = ((System.start sh).run seen).shared.current
  | .done report => ∃ seen counted, seen <+: counted ∧ counted <+: as ∧
      IsReporting ((System.start sh).run seen) i ∧ IsReporting ((System.start sh).run counted) i ∧
      report.stamp = ((System.start sh).run seen).shared.current.stamp ∧
      report.policy.number = ((System.start sh).run counted).shared.store.number

theorem Reading.IsExplained.later (h : phase.IsExplained sh as i) :
    phase.IsExplained sh (as ++ [a]) i := by
  have hlonger := List.prefix_append as [a]
  cases phase with
  | begun => trivial
  | looked l =>
    obtain ⟨seen, hs, h⟩ := h
    exact ⟨seen, hs.trans hlonger, h⟩
  | done report =>
    obtain ⟨seen, counted, hs, hc, h⟩ := h
    exact ⟨seen, counted, hs, hc.trans hlonger, h⟩

theorem Reading.IsExplained.advance
    (ht : ((System.start sh).run as).tasks[i]? = some (.report phase))
    (h : phase.IsExplained sh as i) :
    (phase.advance ((System.start sh).run as).shared).IsExplained sh as i := by
  cases phase with
  | begun => exact ⟨as, List.prefix_rfl, ⟨_, ht, by simp⟩, rfl⟩
  | looked l =>
    obtain ⟨seen, hs, hr, rfl⟩ := h
    exact ⟨seen, as, hs, List.prefix_rfl, hr, ⟨_, ht, by simp⟩, rfl, rfl⟩
  | done report => exact h

theorem run_report_isExplained
    (h : ((System.start sh).run as).tasks[i]? = some (.report phase)) :
    phase.IsExplained sh as i := by
  induction as using List.reverseRecOn generalizing phase with
  | nil => cases h
  | append_singleton as a ih =>
    rw [System.run_snoc] at h
    obtain h | ⟨job, hjob⟩ | ⟨t, ht, h⟩ := System.task_step h
    · exact (ih h).later
    · cases job <;> cases hjob
      trivial
    · cases t with
      | decision r phase' => cases h
      | publication l returned? => cases returned? <;> cases h
      | report phase' =>
        cases h
        exact ((ih ht).advance ht).later

/-- A health report has the source and the load time of a generation that was current while it was under
way, and the number of one that was current then or later. It is consistent exactly if the two
generations have the same source and load time, and so whenever nothing is published between its two
reads. -/
theorem report_consistent_iff
    (h : ((System.start sh).run as).tasks[i]? = some (.report (.done report))) :
    ∃ seen counted, seen <+: counted ∧ counted <+: as ∧
      IsReporting ((System.start sh).run seen) i ∧ IsReporting ((System.start sh).run counted) i ∧
      report.stamp = ((System.start sh).run seen).shared.current.stamp ∧
      report.policy.number = ((System.start sh).run counted).shared.store.number ∧
      (report.IsConsistent sh as ↔ ((System.start sh).run counted).shared.current.stamp =
        ((System.start sh).run seen).shared.current.stamp) ∧
      (((System.start sh).run counted).shared.store.number =
        ((System.start sh).run seen).shared.store.number → report.IsConsistent sh as) := by
  obtain ⟨seen, counted, hs, hc, hseen, hcounted, hstamp, hnumber⟩ := run_report_isExplained h
  have hiff : report.IsConsistent sh as ↔ ((System.start sh).run counted).shared.current.stamp =
      ((System.start sh).run seen).shared.current.stamp := by
    unfold DatedReport.IsConsistent
    rw [hnumber, numbered?_current hc, hstamp]
    simp
  refine ⟨seen, counted, hs, hc, hseen, hcounted, hstamp, hnumber, hiff, ?_⟩
  intro hsame
  have hl : numbered? sh as ((System.start sh).run counted).shared.store.number = _ :=
    numbered?_current hc
  rw [hsame, numbered?_current (hs.trans hc)] at hl
  rw [hiff, Option.some.inj hl]

/-- A generation is published between the two reads of a report. -/
def reportOvertaken : List Action :=
  [.begin .report, .begin (.publish ⟨{ Generation.empty with source? := some "next.yaml" }, default⟩),
    .advance 0, .advance 1, .advance 0]

def firstShared : Shared := ⟨.ofGeneration .empty, default⟩

def overtakenReport : DatedReport := ⟨⟨2, none⟩, default⟩

theorem report_consistent_iff_overtaken :
    ((System.start firstShared).run reportOvertaken).tasks[0]? =
        some (.report (.done overtakenReport)) ∧
      ∃ seen counted, seen <+: counted ∧ counted <+: reportOvertaken ∧
        (overtakenReport.IsConsistent firstShared reportOvertaken ↔
          ((System.start firstShared).run counted).shared.current.stamp =
            ((System.start firstShared).run seen).shared.current.stamp) := by
  have h : ((System.start firstShared).run reportOvertaken).tasks[0]? =
      some (.report (.done overtakenReport)) := rfl
  obtain ⟨seen, counted, hs, hc, _, _, _, _, hiff, _⟩ := report_consistent_iff h
  exact ⟨h, seen, counted, hs, hc, hiff⟩

/-- The number is that of the second generation, and the source and load time are those of the first. -/
theorem report_inconsistent :
    ¬ ∀ (sh : Shared) (as : List Action) (i : Nat) (report : DatedReport),
      ((System.start sh).run as).tasks[i]? = some (.report (.done report)) →
        report.IsConsistent sh as := by
  intro h
  obtain ⟨l, hl, hstamp⟩ := h firstShared reportOvertaken 0 overtakenReport rfl
  cases hl
  exact absurd hstamp (by decide)

end CeilingGate.Service
