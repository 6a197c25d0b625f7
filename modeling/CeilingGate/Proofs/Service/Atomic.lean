import CeilingGate.Proofs.Service.Interleaving

/-! However decisions and publications are interleaved, each decision is made under one generation that
was current while it was under way, and no generation is lost. -/
namespace CeilingGate.Service

open CeilingGate.Admission CeilingGate.Policy CeilingGate.Workload

variable {r : Request} {sh : Shared} {a : Action} {as : List Action} {i : Nat} {phase : Decision}
  {outcome : Outcome}

/-- A first step that settles a decision does so under every generation, and one that decodes the object
leaves the rest to the generation. -/
theorem Decision.start_cases (r : Request) :
    (∃ s, start r = .decoded s ∧ ∀ g, Admission.decide g r = .ok (judge g s)) ∨
      ∃ outcome, start r = .made outcome ∧ ∀ g, Admission.decide g r = outcome := by
  unfold start Admission.decide
  split
  · exact Or.inr ⟨_, rfl, fun _ => rfl⟩
  · dsimp only
    split
    · exact Or.inr ⟨_, rfl, fun _ => rfl⟩
    · cases decode (Kind.ofName r.kind.kind) r.object (requestedTarget r) with
      | ok s => exact Or.inl ⟨s, rfl, fun _ => rfl⟩
      | error stop => exact Or.inr ⟨_, rfl, fun _ => rfl⟩

/-- Three steps with nothing in between make a decision under the current generation. -/
theorem decision_alone (r : Request) (store : Store) :
    (((Decision.asked.advance r store).advance r store).advance r store) =
      .made (Admission.decide store.current r) := by
  obtain ⟨s, hs, hg⟩ | ⟨outcome, ho, hg⟩ := Decision.start_cases r
  · rw [hg, Decision.advance, hs]
    rfl
  · rw [hg, Decision.advance, ho]
    rfl

/-- A task decides on a request and has not made the decision. -/
def IsDeciding (s : System) (i : Nat) (r : Request) : Prop :=
  ∃ phase, s.tasks[i]? = some (.decision r phase) ∧ ∀ outcome, phase ≠ .made outcome

/-- A generation was current at a moment at which a task was deciding on a request. -/
def WasCurrent (sh : Shared) (as : List Action) (i : Nat) (r : Request) (g : Generation) : Prop :=
  ∃ before, before <+: as ∧ IsDeciding ((System.start sh).run before) i r ∧
    g = ((System.start sh).run before).shared.store.current

/-- What is true of a decision that has come so far. -/
def Decision.IsExplained (sh : Shared) (as : List Action) (i : Nat) (r : Request) : Decision → Prop
  | .asked => True
  | .decoded s => ∀ g, Admission.decide g r = .ok (judge g s)
  | .informed s g => (∀ g, Admission.decide g r = .ok (judge g s)) ∧ WasCurrent sh as i r g
  | .made outcome => ∃ g, WasCurrent sh as i r g ∧ outcome = Admission.decide g r

theorem WasCurrent.later {g : Generation} (h : WasCurrent sh as i r g) :
    WasCurrent sh (as ++ [a]) i r g := by
  obtain ⟨before, hb, hd, hg⟩ := h
  exact ⟨before, hb.trans (List.prefix_append as [a]), hd, hg⟩

theorem Decision.IsExplained.later (h : phase.IsExplained sh as i r) :
    phase.IsExplained sh (as ++ [a]) i r := by
  cases phase with
  | asked => trivial
  | decoded s => exact h
  | informed s g => exact ⟨h.1, h.2.later⟩
  | made outcome =>
    obtain ⟨g, hg, ho⟩ := h
    exact ⟨g, hg.later, ho⟩

theorem wasCurrent_now (h : ((System.start sh).run as).tasks[i]? = some (.decision r phase))
    (hp : ∀ outcome, phase ≠ .made outcome) :
    WasCurrent sh as i r ((System.start sh).run as).shared.store.current :=
  ⟨as, List.prefix_rfl, ⟨phase, h, hp⟩, rfl⟩

/-- One step of a decision. The generation that it reads is the one that is current now. -/
theorem Decision.IsExplained.advance
    (ht : ((System.start sh).run as).tasks[i]? = some (.decision r phase))
    (h : phase.IsExplained sh as i r) :
    (phase.advance r ((System.start sh).run as).shared.store).IsExplained sh as i r := by
  cases phase with
  | asked =>
    have hnow := wasCurrent_now ht (by simp)
    rw [Decision.advance]
    obtain ⟨s, hs, hg⟩ | ⟨outcome, ho, hg⟩ := Decision.start_cases r
    · rw [hs]
      exact hg
    · rw [ho]
      exact ⟨_, hnow, (hg _).symm⟩
  | decoded s => exact ⟨h, wasCurrent_now ht (by simp)⟩
  | informed s g => exact ⟨g, h.2, (h.1 g).symm⟩
  | made outcome => exact h

theorem run_isExplained (h : ((System.start sh).run as).tasks[i]? = some (.decision r phase)) :
    phase.IsExplained sh as i r := by
  induction as using List.reverseRecOn generalizing phase with
  | nil => cases h
  | append_singleton as a ih =>
    rw [System.run_snoc] at h
    obtain h | ⟨job, hjob⟩ | ⟨t, ht, h⟩ := System.task_step h
    · exact (ih h).later
    · cases job <;> cases hjob
      trivial
    · cases t with
      | decision r' phase' =>
        cases h
        exact ((ih ht).advance ht).later
      | publication l returned? => cases returned? <;> cases h
      | report phase' => cases h

/-- In every interleaving, what a decision comes to is the decision under one generation that was current
while it was under way; the publications, in the order in which they were made, hand on the first
generation and all that were published up to the current one; and the number counts them. -/
theorem interleaving_atomic (sh : Shared) (as : List Action) :
    (∀ i r outcome, ((System.start sh).run as).tasks[i]? = some (.decision r (.made outcome)) →
      ∃ before, before <+: as ∧ IsDeciding ((System.start sh).run before) i r ∧
        outcome = Admission.decide ((System.start sh).run before).shared.store.current r) ∧
    ((System.start sh).publications as).map (·.returned) ++
        [((System.start sh).run as).shared.current] =
      sh.current :: ((System.start sh).publications as).map (·.published) ∧
    ((System.start sh).run as).finished.Perm ((System.start sh).publications as) ∧
    ((System.start sh).run as).shared.store.number =
      sh.store.number + ((System.start sh).publications as).length := by
  refine ⟨?_, System.publications_chain _ as, ?_, System.number_run _ as⟩
  · intro i r outcome h
    obtain ⟨g, ⟨before, hb, hd, rfl⟩, ho⟩ := run_isExplained h
    exact ⟨before, hb, hd, ho⟩
  · simpa [System.finished, System.start] using System.finished_run (System.start sh) as

/-- A pod whose container declares nothing. -/
def bareRequest : Request :=
  { healthRequest with
    object := .record
      [("metadata", .record [("name", .text "web")]),
        ("spec", .record [("containers", .list [.record [("name", .text "app")]])])] }

/-- A policy without ceilings is published while the pod is being decoded. -/
def overtaken : List Action :=
  [.begin (.decide bareRequest),
    .begin (.publish ⟨{ Generation.empty with defaults := .unlimited }, default⟩),
    .advance 0, .advance 1, .advance 0, .advance 0]

/-- The pod is allowed, as it is under the policy that was current when it was looked up. -/
theorem interleaving_atomic_overtaken :
    ((System.start ⟨.empty, default⟩).run overtaken).tasks[0]? =
        some (.decision bareRequest (.made (.ok none))) ∧
      ∃ before, before <+: overtaken ∧
        IsDeciding ((System.start ⟨.empty, default⟩).run before) 0 bareRequest ∧
        .ok none = Admission.decide
          ((System.start ⟨.empty, default⟩).run before).shared.store.current bareRequest :=
  ⟨rfl, (interleaving_atomic ⟨.empty, default⟩ overtaken).1 0 bareRequest (.ok none) rfl⟩

end CeilingGate.Service
