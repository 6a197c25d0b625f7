import CeilingGate.Admission.Check

/-! When a workload fits a ceiling. The checks find no violation exactly then. -/
namespace CeilingGate.Admission

open CeilingGate.Policy CeilingGate.Workload

variable {c : Ceiling} {d : Declared} {r : Resource} {s : Snapshot} {k : Kind}

/-- Each declared request is within its ceiling. -/
def FitsRequest (c : Ceiling) (d : Declared) (r : Resource) : Prop :=
  ∃ q, request? d r = some q ∧ ∀ most ∈ c.limit? r.requestDimension, q.le most = true

/-- A limit that is not declared counts as zero. -/
def FitsLimit (c : Ceiling) (d : Declared) (r : Resource) : Prop :=
  ∀ most ∈ c.limit? r.limitDimension, ((limit? d r).getD .zero).le most = true

def FitsContainer (c : Ceiling) (d : Declared) : Prop := ∀ r, FitsRequest c d r ∧ FitsLimit c d r

def FitsStorage (c : Ceiling) (size? : Option Quantity) : Prop :=
  ∀ most ∈ c.limit? .storage, ∀ size ∈ size?, size.le most = true

/-- An object of a kind fits a ceiling by what its snapshot declares. -/
def Fits (c : Ceiling) (k : Kind) (s : Snapshot) : Prop :=
  c.isUnlimited = true ∨ (k = .volumeClaim ∧ FitsStorage c s.storage?) ∨
    (k.hasContainers = true ∧ ∀ d ∈ s.containers, FitsContainer c d)

theorem checkRequest_eq_none_iff :
    checkPresent d r = none ∧ checkRequest d c r = none ↔ FitsRequest c d r := by
  unfold checkPresent checkRequest FitsRequest
  cases hq : request? d r with
  | none => simp
  | some q =>
    cases hm : c.limit? r.requestDimension with
    | none => simp
    | some most => simp [Quantity.gt_eq_not_le]

theorem checkLimit_eq_none_iff : checkLimit d c r = none ↔ FitsLimit c d r := by
  unfold checkLimit FitsLimit
  cases hm : c.limit? r.limitDimension with
  | none => simp
  | some most => simp [Quantity.gt_eq_not_le]

theorem checkContainer_eq_none_iff : checkContainer c d = none ↔ FitsContainer c d := by
  have hcpu := checkRequest_eq_none_iff (c := c) (d := d) (r := .cpu)
  have hmemory := checkRequest_eq_none_iff (c := c) (d := d) (r := .memory)
  have hlimit := fun r => checkLimit_eq_none_iff (c := c) (d := d) (r := r)
  simp only [checkContainer, checks, List.findSome?_eq_none_iff, List.mem_cons, List.not_mem_nil,
    or_false, forall_eq_or_imp, forall_eq, id]
  constructor
  · rintro ⟨h₁, h₂, h₃, h₄, h₅, h₆⟩ r
    cases r with
    | cpu => exact ⟨hcpu.mp ⟨h₁, h₃⟩, (hlimit .cpu).mp h₅⟩
    | memory => exact ⟨hmemory.mp ⟨h₂, h₄⟩, (hlimit .memory).mp h₆⟩
  · intro h
    obtain ⟨h₁, h₃⟩ := hcpu.mpr (h .cpu).1
    obtain ⟨h₂, h₄⟩ := hmemory.mpr (h .memory).1
    exact ⟨h₁, h₂, h₃, h₄, (hlimit .cpu).mpr (h .cpu).2, (hlimit .memory).mpr (h .memory).2⟩

theorem checkContainers_eq_none_iff {ds : List Declared} (h : c.isUnlimited = false) :
    checkContainers c ds = none ↔ ∀ d ∈ ds, FitsContainer c d := by
  simp [checkContainers, h, List.findSome?_eq_none_iff, checkContainer_eq_none_iff]

theorem checkStorage_eq_none_iff {name : RawText} {size? : Option Quantity}
    (h : c.isUnlimited = false) : checkStorage c name size? = none ↔ FitsStorage c size? := by
  unfold checkStorage FitsStorage
  cases hm : c.limit? .storage with
  | none => simp
  | some most =>
    cases size? with
    | none => simp
    | some size => simp [h, Quantity.gt_eq_not_le]

/-- The checks of an object find nothing exactly if it fits. -/
theorem checkSnapshot_eq_none_iff (h : s.kind ≠ .unrecognised) :
    checkSnapshot c s = none ↔ Fits c s.kind s := by
  unfold checkSnapshot Fits
  cases hu : c.isUnlimited with
  | true => simp
  | false =>
    obtain hk | ⟨hk, hs⟩ := Kind.claim_or_containers h
    · simp [hk, Kind.isStorage, Kind.hasContainers, checkStorage_eq_none_iff hu]
    · have hc : s.kind ≠ .volumeClaim := by
        intro he
        simp [he, Kind.hasContainers] at hk
      simp [hk, hs, hc, checkContainers_eq_none_iff hu]

end CeilingGate.Admission
