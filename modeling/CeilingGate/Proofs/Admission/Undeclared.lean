import CeilingGate.Proofs.Admission.Fit
import CeilingGate.Proofs.Policy.Amounts

/-! Limits that are not declared. They count as zero, which no ceiling of a loaded policy is below, so a
workload never loses by leaving a limit out. -/
namespace CeilingGate.Admission

open CeilingGate.Policy CeilingGate.Workload

variable {c : Ceiling} {d : Declared} {ds : List Declared} {r r' : Resource} {v : Violation}
  {name : RawText} {q most : Quantity} {g : Generation} {s : Source} {source? : Option RawText}

/-- A container as it would be without one of its limits. -/
def withoutLimit (d : Declared) : Resource → Declared
  | .cpu => { d with cpuLimit? := none }
  | .memory => { d with memoryLimit? := none }

@[simp] theorem request?_withoutLimit (d : Declared) (r r' : Resource) :
    request? (withoutLimit d r) r' = request? d r' := by
  cases r <;> cases r' <;> rfl

@[simp] theorem limit?_withoutLimit (d : Declared) (r r' : Resource) :
    limit? (withoutLimit d r) r' = if r' = r then none else limit? d r' := by
  cases r <;> cases r' <;> rfl

theorem zero_le_of_hasAmounts (hc : c.HasAmounts) {dim : Dimension} (h : most ∈ c.limit? dim) :
    Quantity.zero.le most = true :=
  Quantity.zero_le_iff.mpr (Decimal.isNegative_eq_false_iff.mpr (hc dim most h).nonneg)

/-- A container that fits also fits without one of its limits. -/
theorem fitsContainer_withoutLimit (hc : c.HasAmounts) (h : FitsContainer c d) (r : Resource) :
    FitsContainer c (withoutLimit d r) := by
  intro r'
  obtain ⟨hrequest, hlimit⟩ := h r'
  refine ⟨by simpa [FitsRequest] using hrequest, ?_⟩
  intro most hm
  rw [limit?_withoutLimit]
  split
  · exact zero_le_of_hasAmounts hc hm
  · exact hlimit most hm

theorem checkContainers_modify (hc : c.HasAmounts) (h : checkContainers c ds = none) (i : Nat)
    (r : Resource) : checkContainers c (ds.modify i (withoutLimit · r)) = none := by
  cases hu : c.isUnlimited with
  | true => simp [checkContainers, hu]
  | false =>
    rw [checkContainers_eq_none_iff hu] at h ⊢
    by_cases hi : i < ds.length
    · obtain ⟨before, d, after, rfl, _, he⟩ := List.exists_of_modify (withoutLimit · r) hi
      rw [he]
      simp only [List.forall_mem_append, List.forall_mem_cons] at h ⊢
      exact ⟨h.1, fitsContainer_withoutLimit hc h.2.1 r, h.2.2⟩
    · rw [List.modify_eq_self (by omega)]
      exact h

/-- A denial over a limit quotes what is declared, or zero. -/
theorem checkLimit_eq_some (h : checkLimit d c r = some v) :
    ∃ most, c.limit? r.limitDimension = some most ∧ ((limit? d r).getD .zero).gt most = true ∧
      v = .limitTooLarge d.name r ((limit? d r).getD .zero) most := by
  unfold checkLimit at h
  cases hm : c.limit? r.limitDimension with
  | none => simp [hm] at h
  | some most =>
    simp only [hm, Option.ite_none_right_eq_some, Option.some.injEq] at h
    exact ⟨most, rfl, h.1, h.2.symm⟩

theorem checkPresent_ne_limit (d : Declared) :
    checkPresent d r' ≠ some (.limitTooLarge name r q most) := by
  unfold checkPresent
  split <;> simp

theorem checkRequest_ne_limit (d : Declared) (c : Ceiling) :
    checkRequest d c r' ≠ some (.limitTooLarge name r q most) := by
  unfold checkRequest
  split
  · split <;> simp
  · simp

/-- Denials over limits come from the checks of limits. -/
theorem checkLimit_of_checkContainer
    (h : checkContainer c d = some (.limitTooLarge name r q most)) :
    checkLimit d c r = some (.limitTooLarge name r q most) := by
  have hlimit : ∀ r', checkLimit d c r' = some (.limitTooLarge name r q most) →
      checkLimit d c r = some (.limitTooLarge name r q most) := by
    intro r' h
    obtain ⟨_, _, _, he⟩ := checkLimit_eq_some h
    cases he
    exact h
  obtain ⟨x, hx, hv⟩ := List.exists_of_findSome?_eq_some h
  obtain rfl : x = _ := hv
  simp only [checks, List.mem_cons, List.not_mem_nil, or_false] at hx
  rcases hx with hx | hx | hx | hx | hx | hx
  · exact (checkPresent_ne_limit d hx.symm).elim
  · exact (checkPresent_ne_limit d hx.symm).elim
  · exact (checkRequest_ne_limit d c hx.symm).elim
  · exact (checkRequest_ne_limit d c hx.symm).elim
  · exact hlimit .cpu hx.symm
  · exact hlimit .memory hx.symm

/-- A container that is denied for a limit declares that limit, and more than the ceiling. -/
theorem declared_of_checkContainer (hc : c.HasAmounts)
    (h : checkContainer c d = some (.limitTooLarge name r q most)) :
    d.name = name ∧ limit? d r = some q ∧ c.limit? r.limitDimension = some most ∧
      q.gt most = true := by
  obtain ⟨most', hm, hgt, he⟩ := checkLimit_eq_some (checkLimit_of_checkContainer h)
  cases he
  cases hl : limit? d r with
  | some q => exact ⟨rfl, rfl, hm, by simpa [hl] using hgt⟩
  | none =>
    have hle := zero_le_of_hasAmounts hc hm
    simp [hl, Quantity.gt_eq_not_le, hle] at hgt

theorem declared_of_checkContainers (hc : c.HasAmounts)
    (h : checkContainers c ds = some (.limitTooLarge name r q most)) :
    ∃ before d after, ds = before ++ d :: after ∧ checkContainers c before = none ∧
      d.name = name ∧ limit? d r = some q ∧ c.limit? r.limitDimension = some most ∧
        q.gt most = true := by
  cases hu : c.isUnlimited with
  | true => simp [checkContainers, hu] at h
  | false =>
    simp only [checkContainers, hu, Bool.false_eq_true, if_false] at h ⊢
    obtain ⟨before, d, after, hds, hd, hbefore⟩ := List.findSome?_eq_some_iff.mp h
    exact ⟨before, d, after, hds, List.findSome?_eq_none_iff.mpr hbefore,
      declared_of_checkContainer hc hd⟩

/-- The limits of a loaded policy, of its defaults and of each override, are finite and not below zero.
So containers that are allowed stay so without any one of their limits, and a denial over a limit is one
of a container that declares it. -/
theorem undeclared_limits_allowed (h : parse s source? = .ok g) :
    (∀ c ∈ g.ceilings, ∀ dim, ∀ q ∈ c.limit? dim, q.IsFinite ∧ 0 ≤ q.value.toRat) ∧
    ∀ t ds,
      (∀ i r, checkContainers (g.resolve t) ds = none →
        checkContainers (g.resolve t) (ds.modify i (withoutLimit · r)) = none) ∧
      ∀ name r q most,
        checkContainers (g.resolve t) ds = some (.limitTooLarge name r q most) →
          ∃ before d after, ds = before ++ d :: after ∧
            checkContainers (g.resolve t) before = none ∧ d.name = name ∧ limit? d r = some q ∧
            (g.resolve t).limit? r.limitDimension = some most ∧ q.gt most = true := by
  obtain ⟨d, hd⟩ := generation_of_parse h
  have hg := generation_hasAmounts hd
  refine ⟨fun c hc dim q hq => ⟨(hg c hc dim q hq).isFinite, (hg c hc dim q hq).nonneg⟩, ?_⟩
  intro t ds
  have hc := resolve_hasAmounts hg t
  exact ⟨fun i r h => checkContainers_modify hc h i r,
    fun name r q most h => declared_of_checkContainers hc h⟩

def one : Quantity := ⟨"1", ⟨false, 1, 0⟩⟩

def gibibyte : Quantity := ⟨"1Gi", ⟨false, 1073741824, 0⟩⟩

def negativeZero : Quantity := ⟨"-0", ⟨true, 0, 0⟩⟩

/-- A limit of negative zero, and a namespace that inherits it. -/
def zeroText : String :=
  "maxCPULimit: \"-0\"\nmaxCPURequest: 1\nmaxMemRequest: 1Gi\ncustomNamespaces: " ++
    "\x7bshop: \x7bmaxMemLimit: 1Gi\x7d\x7d"

def zeroGeneration : Generation where
  defaults := ⟨⟨some negativeZero, none, some one, some gibibyte, none⟩, false⟩
  names := []
  namespaces :=
    [("shop", ⟨⟨some negativeZero, some gibibyte, some one, some gibibyte, none⟩, false⟩)]
  source? := none

theorem parse_zeroText : parse (.text zeroText) none = .ok zeroGeneration := by decide +kernel

/-- A container that declares its requests and certain limits. -/
def limitedContainer (cpuLimit? memoryLimit? : Option Quantity) : Declared :=
  ⟨"app", some one, some gibibyte, cpuLimit?, memoryLimit?⟩

/-- Nothing is lost without the memory limit, and the denial is one of the container that declares a
limit. -/
theorem undeclared_limits_allowed_zeroText :
    parse (.text zeroText) none = .ok zeroGeneration ∧
      checkContainers (zeroGeneration.resolve ⟨"web", "shop"⟩)
        [limitedContainer none (some gibibyte)] = none ∧
      checkContainers (zeroGeneration.resolve ⟨"web", "shop"⟩)
        [limitedContainer none none] = none ∧
      ∃ before d after,
        [limitedContainer none none, limitedContainer (some one) none] = before ++ d :: after ∧
          limit? d .cpu = some one := by
  obtain ⟨_, hsafe⟩ := undeclared_limits_allowed parse_zeroText
  have hallowed : checkContainers (zeroGeneration.resolve ⟨"web", "shop"⟩)
      [limitedContainer none (some gibibyte)] = none := by decide
  have hdenied : checkContainers (zeroGeneration.resolve ⟨"web", "shop"⟩)
      [limitedContainer none none, limitedContainer (some one) none] =
        some (.limitTooLarge "app" .cpu one negativeZero) := by decide
  obtain ⟨before, d, after, hds, _, _, hl, _⟩ := (hsafe ⟨"web", "shop"⟩ _).2 _ _ _ _ hdenied
  exact ⟨parse_zeroText, hallowed, (hsafe _ _).1 0 .memory hallowed, before, d, after, hds, hl⟩

end CeilingGate.Admission
