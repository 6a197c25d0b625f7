import CeilingGate.Proofs.Admission.Undeclared
import CeilingGate.Proofs.Decimal.Order

/-! What is allowed stays allowed under a looser ceiling, and stays so for a workload that asks for no
more. -/
namespace CeilingGate.Admission

open CeilingGate.Policy CeilingGate.Workload

variable {c c' : Ceiling} {d d' : Declared} {ds : List Declared} {r : Resource} {q q' : Quantity}
  {l? : Option Quantity} {name : RawText} {size? : Option Quantity} {i : Nat}

/-- Where the second ceiling has a limit, the first one has a limit that is not above it. -/
def IsWithin (c c' : Ceiling) : Prop :=
  ∀ dim, ∀ most' ∈ c'.limit? dim, ∃ most ∈ c.limit? dim, most.le most' = true

/-- The second ceiling is unlimited, or both are limited and it allows at least as much in each
dimension. -/
def Looser (c c' : Ceiling) : Prop :=
  c'.isUnlimited = true ∨ (c.isUnlimited = false ∧ c'.isUnlimited = false ∧ IsWithin c c')

/-- The first container asks for no more than the second, and leaves out no request that the second
declares. -/
structure Lighter (d' d : Declared) : Prop where
  request : ∀ r, ∀ q ∈ request? d r, ∃ q' ∈ request? d' r, q'.le q = true
  limit : ∀ r, ((limit? d' r).getD .zero).le ((limit? d r).getD .zero) = true

/-- A container with another request for a resource. -/
def withRequest (d : Declared) (r : Resource) (q : Quantity) : Declared :=
  match r with
  | .cpu => { d with cpuRequest? := some q }
  | .memory => { d with memoryRequest? := some q }

/-- A container with another limit for a resource, or with none. -/
def withLimit (d : Declared) (r : Resource) (l? : Option Quantity) : Declared :=
  match r with
  | .cpu => { d with cpuLimit? := l? }
  | .memory => { d with memoryLimit? := l? }

@[simp] theorem request?_withRequest (d : Declared) (r r' : Resource) (q : Quantity) :
    request? (withRequest d r q) r' = if r' = r then some q else request? d r' := by
  cases r <;> cases r' <;> rfl

@[simp] theorem limit?_withRequest (d : Declared) (r r' : Resource) (q : Quantity) :
    limit? (withRequest d r q) r' = limit? d r' := by
  cases r <;> cases r' <;> rfl

@[simp] theorem request?_withLimit (d : Declared) (r r' : Resource) (l? : Option Quantity) :
    request? (withLimit d r l?) r' = request? d r' := by
  cases r <;> cases r' <;> rfl

@[simp] theorem limit?_withLimit (d : Declared) (r r' : Resource) (l? : Option Quantity) :
    limit? (withLimit d r l?) r' = if r' = r then l? else limit? d r' := by
  cases r <;> cases r' <;> rfl

theorem isWithin_refl (c : Ceiling) : IsWithin c c :=
  fun _ most hm => ⟨most, hm, most.le_refl⟩

theorem lighter_refl (d : Declared) : Lighter d d :=
  ⟨fun _ q hq => ⟨q, hq, q.le_refl⟩, fun _ => Quantity.le_refl _⟩

theorem lighter_withRequest (hq : request? d r = some q) (hle : q'.le q = true) :
    Lighter (withRequest d r q') d where
  request := by
    intro r' p hp
    rw [request?_withRequest]
    split
    · next he =>
      subst he
      rw [hq] at hp
      exact ⟨q', rfl, Option.some.inj hp ▸ hle⟩
    · exact ⟨p, hp, p.le_refl⟩
  limit := by simp [Quantity.le_refl]

theorem lighter_withLimit (hle : (l?.getD .zero).le ((limit? d r).getD .zero) = true) :
    Lighter (withLimit d r l?) d where
  request := by
    intro r' q hq
    exact ⟨q, (request?_withLimit d r r' l?).trans hq, q.le_refl⟩
  limit := by
    intro r'
    rw [limit?_withLimit]
    split
    · next he => exact he ▸ hle
    · exact Quantity.le_refl _

theorem FitsRequest.mono (hc : IsWithin c c') (hd : Lighter d' d) (h : FitsRequest c d r) :
    FitsRequest c' d' r := by
  obtain ⟨q, hq, hfit⟩ := h
  obtain ⟨q', hq', hle⟩ := hd.request r q hq
  refine ⟨q', hq', ?_⟩
  intro most' hm'
  obtain ⟨most, hm, hmost⟩ := hc _ most' hm'
  exact Quantity.le_trans hle (Quantity.le_trans (hfit most hm) hmost)

theorem FitsLimit.mono (hc : IsWithin c c') (hd : Lighter d' d) (h : FitsLimit c d r) :
    FitsLimit c' d' r := by
  intro most' hm'
  obtain ⟨most, hm, hmost⟩ := hc _ most' hm'
  exact Quantity.le_trans (hd.limit r) (Quantity.le_trans (h most hm) hmost)

/-- A lighter container fits a looser ceiling. -/
theorem FitsContainer.mono (hc : IsWithin c c') (hd : Lighter d' d) (h : FitsContainer c d) :
    FitsContainer c' d' :=
  fun r => ⟨(h r).1.mono hc hd, (h r).2.mono hc hd⟩

theorem FitsStorage.mono (hc : IsWithin c c') (h : FitsStorage c size?) :
    FitsStorage c' size? := by
  intro most' hm' size hsize
  obtain ⟨most, hm, hmost⟩ := hc _ most' hm'
  exact Quantity.le_trans (h most hm size hsize) hmost

theorem checkContainers_looser (h : Looser c c') (hds : checkContainers c ds = none) :
    checkContainers c' ds = none := by
  obtain hu | ⟨hu, hu', hc⟩ := h
  · simp [checkContainers, hu]
  · rw [checkContainers_eq_none_iff hu] at hds
    rw [checkContainers_eq_none_iff hu']
    exact fun d hd => (hds d hd).mono hc (lighter_refl d)

theorem checkStorage_looser (h : Looser c c') (hs : checkStorage c name size? = none) :
    checkStorage c' name size? = none := by
  obtain hu | ⟨hu, hu', hc⟩ := h
  · simp [checkStorage, hu]
  · rw [checkStorage_eq_none_iff hu] at hs
    rw [checkStorage_eq_none_iff hu']
    exact hs.mono hc

/-- A list stays allowed if each of its containers is lighter than one that was there before. -/
theorem checkContainers_lighter {ds' : List Declared} (hds : checkContainers c ds = none)
    (h : ∀ d' ∈ ds', ∃ d ∈ ds, Lighter d' d) : checkContainers c ds' = none := by
  cases hu : c.isUnlimited with
  | true => simp [checkContainers, hu]
  | false =>
    rw [checkContainers_eq_none_iff hu] at hds ⊢
    intro d' hd'
    obtain ⟨d, hd, hlight⟩ := h d' hd'
    exact (hds d hd).mono (isWithin_refl c) hlight

theorem checkContainers_eraseIdx (hds : checkContainers c ds = none) (i : Nat) :
    checkContainers c (ds.eraseIdx i) = none :=
  checkContainers_lighter hds fun d hd => ⟨d, List.mem_of_mem_eraseIdx hd, lighter_refl d⟩

theorem checkContainers_set (hds : checkContainers c ds = none) (hi : ds[i]? = some d)
    (hd : Lighter d' d) : checkContainers c (ds.set i d') = none := by
  refine checkContainers_lighter hds fun x hx => ?_
  obtain hx | rfl := List.mem_or_eq_of_mem_set hx
  · exact ⟨x, hx, lighter_refl x⟩
  · exact ⟨d, List.mem_of_getElem? hi, hd⟩

/-- What a ceiling allows is allowed by each looser one, containers and claims alike. Containers that
are allowed stay so without any one of them, with a lower request for a resource in the place of a
declared one, and with a limit that counts for no more than the one before. -/
theorem allowed_stays_allowed (c : Ceiling) (ds : List Declared) :
    (∀ c', Looser c c' →
      (checkContainers c ds = none → checkContainers c' ds = none) ∧
      ∀ name size?, checkStorage c name size? = none → checkStorage c' name size? = none) ∧
    (checkContainers c ds = none →
      (∀ i, checkContainers c (ds.eraseIdx i) = none) ∧
      ∀ i d, ds[i]? = some d → ∀ r,
        (∀ q q', request? d r = some q → q'.le q = true →
          checkContainers c (ds.set i (withRequest d r q')) = none) ∧
        ∀ l? : Option Quantity, (l?.getD .zero).le ((limit? d r).getD .zero) = true →
          checkContainers c (ds.set i (withLimit d r l?)) = none) := by
  refine ⟨fun c' h => ⟨checkContainers_looser h, fun name size? => checkStorage_looser h⟩, ?_⟩
  intro hds
  refine ⟨checkContainers_eraseIdx hds, fun i d hi r => ⟨?_, ?_⟩⟩
  · intro q q' hq hle
    exact checkContainers_set hds hi (lighter_withRequest hq hle)
  · intro l? hle
    exact checkContainers_set hds hi (lighter_withLimit hle)

def milliOne : Quantity := ⟨"1000m", ⟨false, 1000, -3⟩⟩

def strictCeiling : Ceiling :=
  ⟨⟨some one, some gibibyte, some one, some gibibyte, some gibibyte⟩, false⟩

/-- The same request in another spelling, and ceilings left out. -/
def laxCeiling : Ceiling := ⟨⟨some one, none, some milliOne, none, none⟩, false⟩

theorem looser_laxCeiling : Looser strictCeiling laxCeiling := by
  refine Or.inr ⟨rfl, rfl, ?_⟩
  intro dim most' hm
  cases dim with
  | cpuLimit | cpuRequest =>
    cases hm
    exact ⟨one, rfl, by decide⟩
  | memoryLimit | memoryRequest | storage => cases hm

/-- A container at its ceilings, under a looser one, with the same request in another spelling, without
its limit, and gone. -/
theorem allowed_stays_allowed_strictCeiling :
    let d := limitedContainer (some one) none
    Looser strictCeiling laxCeiling ∧ checkContainers strictCeiling [d] = none ∧
      checkContainers laxCeiling [d] = none ∧
      checkStorage laxCeiling "data" (some gibibyte) = none ∧
      checkContainers strictCeiling [withRequest d .cpu milliOne] = none ∧
      checkContainers strictCeiling [withLimit d .cpu none] = none ∧
      checkContainers strictCeiling [] = none := by
  intro d
  obtain ⟨hlooser, hlighter⟩ := allowed_stays_allowed strictCeiling [d]
  obtain ⟨hcontainers, hstorage⟩ := hlooser laxCeiling looser_laxCeiling
  have hallowed : checkContainers strictCeiling [d] = none := by decide
  have hclaim : checkStorage strictCeiling "data" (some gibibyte) = none := by decide
  obtain ⟨herase, hset⟩ := hlighter hallowed
  obtain ⟨hrequest, hlimit⟩ := hset 0 d rfl .cpu
  exact ⟨looser_laxCeiling, hallowed, hcontainers hallowed, hstorage _ _ hclaim,
    hrequest one milliOne rfl (by decide), hlimit none (by decide), herase 0⟩

end CeilingGate.Admission
