import CeilingGate.Proofs.Admission.Fit
import CeilingGate.Proofs.Decimal.Order

/-! The verdict on containers is the first violation: of the first container that breaks a rule, the first
rule that it breaks. What a denial quotes as larger is larger as a number. -/
namespace CeilingGate.Admission

open CeilingGate.Policy CeilingGate.Workload

/-- What a container has to keep to under a ceiling. -/
inductive Rule
  | declaresRequest (r : Resource)
  | keepsRequest (r : Resource)
  | keepsLimit (r : Resource)
deriving DecidableEq

/-- All rules, in the order in which they count. -/
def Rule.order : List Rule :=
  [.declaresRequest .cpu, .declaresRequest .memory, .keepsRequest .cpu, .keepsRequest .memory,
    .keepsLimit .cpu, .keepsLimit .memory]

/-- A container breaks a rule, which is told by a message. A limit that is not declared counts as zero and
is quoted so. -/
inductive Breaks (c : Ceiling) (d : Declared) : Rule → RawText → Prop
  | missing {r : Resource} (hq : request? d r = none) :
      Breaks c d (.declaresRequest r)
        ("error container " ++ d.name ++ " requests." ++ r.name ++ " is empty, must be set")
  | request {r : Resource} {q most : Quantity} (hq : request? d r = some q)
      (hm : c.limit? r.requestDimension = some most) (hlt : most.value.toRat < q.value.toRat) :
      Breaks c d (.keepsRequest r)
        ("error container " ++ d.name ++ " requests." ++ r.name ++ ": " ++ q.text ++ " > " ++
          most.text)
  | limit {r : Resource} {q most : Quantity} (hq : limit? d r = some q)
      (hm : c.limit? r.limitDimension = some most) (hlt : most.value.toRat < q.value.toRat) :
      Breaks c d (.keepsLimit r)
        ("error container " ++ d.name ++ " limits." ++ r.name ++ ": " ++ q.text ++ " > " ++
          most.text)
  | noLimit {r : Resource} {most : Quantity} (hq : limit? d r = none)
      (hm : c.limit? r.limitDimension = some most) (hlt : most.value.toRat < 0) :
      Breaks c d (.keepsLimit r)
        ("error container " ++ d.name ++ " limits." ++ r.name ++ ": " ++ "0" ++ " > " ++ most.text)

def Keeps (c : Ceiling) (d : Declared) (k : Rule) : Prop := ∀ t, ¬ Breaks c d k t

/-- The message is that of the first rule that the container breaks. -/
def FirstBroken (c : Ceiling) (d : Declared) (t : RawText) : Prop :=
  ∃ earlier k later, Rule.order = earlier ++ k :: later ∧ (∀ k' ∈ earlier, Keeps c d k') ∧
    Breaks c d k t

/-- The message is that of the first rule broken by the first container that breaks one. -/
def FirstViolation (c : Ceiling) (ds : List Declared) (t : RawText) : Prop :=
  ∃ before d after, ds = before ++ d :: after ∧ (∀ d' ∈ before, ∀ k, Keeps c d' k) ∧
    FirstBroken c d t

/-- Requests and limits equal their ceilings where there are any. -/
def IsAtCeiling (c : Ceiling) (d : Declared) : Prop :=
  ∀ r, (∃ q, request? d r = some q ∧ ∀ most ∈ c.limit? r.requestDimension, q.eqv most = true) ∧
    ∀ most ∈ c.limit? r.limitDimension, ((limit? d r).getD .zero).eqv most = true

variable {c : Ceiling} {d : Declared} {ds : List Declared} {r : Resource} {k : Rule} {t : RawText}
  {v : Violation} {most : Quantity}

theorem findSome?_map_eq_some_iff {α β γ : Type} {f : α → Option β} {g : β → γ} {xs : List α} {y : γ} :
    (xs.findSome? f).map g = some y ↔
      ∃ before x after, xs = before ++ x :: after ∧ (∀ x' ∈ before, f x' = none) ∧
        (f x).map g = some y := by
  constructor
  · intro h
    obtain ⟨b, hb, rfl⟩ := Option.map_eq_some_iff.mp h
    obtain ⟨before, x, after, hxs, hx, hbefore⟩ := List.findSome?_eq_some_iff.mp hb
    exact ⟨before, x, after, hxs, hbefore, by rw [hx]; rfl⟩
  · rintro ⟨before, x, after, hxs, hbefore, hx⟩
    obtain ⟨b, hb, rfl⟩ := Option.map_eq_some_iff.mp hx
    rw [List.findSome?_eq_some_iff.mpr ⟨before, x, after, hxs, hb, hbefore⟩]
    rfl

/-- The check that is made of a rule. -/
def Rule.check (c : Ceiling) (d : Declared) : Rule → Option Violation
  | .declaresRequest r => checkPresent d r
  | .keepsRequest r => checkRequest d c r
  | .keepsLimit r => checkLimit d c r

theorem checks_eq (c : Ceiling) (d : Declared) : checks c d = Rule.order.map (Rule.check c d) := rfl

theorem mem_order (k : Rule) : k ∈ Rule.order := by
  obtain r | r | r := k <;> cases r <;> decide

theorem checkContainer_eq (c : Ceiling) (d : Declared) :
    checkContainer c d = Rule.order.findSome? (Rule.check c d) := by
  rw [checkContainer, checks_eq, List.findSome?_map]
  rfl

theorem checkPresent_eq_some_iff :
    checkPresent d r = some v ↔ request? d r = none ∧ .requestMissing d.name r = v := by
  unfold checkPresent
  cases hq : request? d r with
  | none => simp
  | some q => simp

theorem checkRequest_eq_some_iff :
    checkRequest d c r = some v ↔ ∃ q most, request? d r = some q ∧
      c.limit? r.requestDimension = some most ∧ q.gt most = true ∧
        .requestTooLarge d.name r q most = v := by
  unfold checkRequest
  cases hq : request? d r with
  | none => simp
  | some q =>
    cases hm : c.limit? r.requestDimension with
    | none => simp
    | some most => simp

theorem checkLimit_eq_some_iff :
    checkLimit d c r = some v ↔ ∃ most, c.limit? r.limitDimension = some most ∧
      ((limit? d r).getD .zero).gt most = true ∧
        .limitTooLarge d.name r ((limit? d r).getD .zero) most = v := by
  unfold checkLimit
  cases hm : c.limit? r.limitDimension with
  | none => simp
  | some most => simp

theorem toRat_zero : Quantity.zero.value.toRat = 0 := by
  simp [Quantity.zero, Decimal.zero, Decimal.toRat]

/-- A limit that is too large, and the message that tells it, whether or not it is declared. -/
theorem breaks_limit (hm : c.limit? r.limitDimension = some most)
    (hgt : ((limit? d r).getD .zero).gt most = true) :
    Breaks c d (.keepsLimit r)
      (Violation.limitTooLarge d.name r ((limit? d r).getD .zero) most).message := by
  have hlt := Quantity.gt_iff.mp hgt
  cases hq : limit? d r with
  | none =>
    rw [hq, Option.getD_none, toRat_zero] at hlt
    exact .noLimit hq hm hlt
  | some q =>
    rw [hq] at hlt
    exact .limit hq hm hlt

/-- A check finds the message by which the rule is broken. -/
theorem check_message_iff :
    (∃ v, Rule.check c d k = some v ∧ v.message = t) ↔ Breaks c d k t := by
  constructor
  · rintro ⟨v, hv, rfl⟩
    cases k with
    | declaresRequest r =>
      obtain ⟨hq, rfl⟩ := checkPresent_eq_some_iff.mp hv
      exact .missing hq
    | keepsRequest r =>
      obtain ⟨q, most, hq, hm, hgt, rfl⟩ := checkRequest_eq_some_iff.mp hv
      exact .request hq hm (Quantity.gt_iff.mp hgt)
    | keepsLimit r =>
      obtain ⟨most, hm, hgt, rfl⟩ := checkLimit_eq_some_iff.mp hv
      exact breaks_limit hm hgt
  · intro h
    cases h with
    | missing hq => exact ⟨_, checkPresent_eq_some_iff.mpr ⟨hq, rfl⟩, rfl⟩
    | request hq hm hlt =>
      exact ⟨_, checkRequest_eq_some_iff.mpr ⟨_, _, hq, hm, Quantity.gt_iff.mpr hlt, rfl⟩, rfl⟩
    | limit hq hm hlt =>
      refine ⟨_, checkLimit_eq_some_iff.mpr ⟨_, hm, ?_, rfl⟩, ?_⟩
      · rw [hq]
        exact Quantity.gt_iff.mpr hlt
      · rw [hq]
        rfl
    | noLimit hq hm hlt =>
      refine ⟨_, checkLimit_eq_some_iff.mpr ⟨_, hm, ?_, rfl⟩, ?_⟩
      · rw [hq]
        exact Quantity.gt_iff.mpr (by rwa [Option.getD_none, toRat_zero])
      · rw [hq]
        rfl

theorem check_eq_none_iff : Rule.check c d k = none ↔ Keeps c d k := by
  unfold Keeps
  simp only [← check_message_iff, Option.eq_none_iff_forall_ne_some]
  constructor
  · rintro h t ⟨v, hv, _⟩
    exact h v hv
  · intro h v hv
    exact h v.message ⟨v, hv, rfl⟩

theorem checkContainer_eq_none_iff_keeps : checkContainer c d = none ↔ ∀ k, Keeps c d k := by
  simp only [checkContainer_eq, List.findSome?_eq_none_iff, check_eq_none_iff, mem_order,
    forall_true_left]

theorem checkContainer_message_iff :
    (checkContainer c d).map Violation.message = some t ↔ FirstBroken c d t := by
  rw [checkContainer_eq, findSome?_map_eq_some_iff]
  simp only [FirstBroken, check_eq_none_iff, Option.map_eq_some_iff, check_message_iff]

theorem checkContainers_message_iff (hc : c.isUnlimited = false) :
    (checkContainers c ds).map Violation.message = some t ↔ FirstViolation c ds t := by
  simp only [checkContainers, hc, Bool.false_eq_true, if_false, findSome?_map_eq_some_iff,
    checkContainer_eq_none_iff_keeps, checkContainer_message_iff, FirstViolation]

theorem checkContainers_isSome_iff (hc : c.isUnlimited = false) :
    (checkContainers c ds).isSome = true ↔ ∃ d ∈ ds, ∃ k t, Breaks c d k t := by
  have hkeeps : checkContainers c ds = none ↔ ∀ d ∈ ds, ∀ k, Keeps c d k := by
    simp only [checkContainers, hc, Bool.false_eq_true, if_false, List.findSome?_eq_none_iff,
      checkContainer_eq_none_iff_keeps]
  rw [Option.isSome_iff_ne_none, ne_eq, hkeeps]
  simp only [Keeps, not_forall, not_not, exists_prop]

theorem checkContainers_append (c : Ceiling) (xs ys : List Declared) :
    checkContainers c (xs ++ ys) = (checkContainers c xs).or (checkContainers c ys) := by
  unfold checkContainers
  split
  · rfl
  · exact List.findSome?_append

/-- A container that equals its ceilings fits them. -/
theorem IsAtCeiling.fits (h : IsAtCeiling c d) : FitsContainer c d := by
  intro r
  obtain ⟨⟨q, hq, hrequest⟩, hlimit⟩ := h r
  exact ⟨⟨q, hq, fun most hm => Quantity.le_of_eqv (hrequest most hm)⟩,
    fun most hm => Quantity.le_of_eqv (hlimit most hm)⟩

/-- Under a ceiling that is not unlimited, containers are denied exactly if one of them breaks a rule, and
the message is that of the first rule broken by the first container that breaks one. Equal quantities
break none. So a list that is denied is denied alike whatever follows it, and behind a list that is
allowed the rest decides. -/
theorem verdict_is_firstViolation (hc : c.isUnlimited = false) (ds : List Declared) :
    ((checkContainers c ds).isSome = true ↔ ∃ d ∈ ds, ∃ k t, Breaks c d k t) ∧
      (∀ t, (checkContainers c ds).map Violation.message = some t ↔ FirstViolation c ds t) ∧
      (∀ d, IsAtCeiling c d → checkContainers c [d] = none) ∧
      ∀ xs ys, checkContainers c (xs ++ ys) =
        (checkContainers c xs).or (checkContainers c ys) := by
  refine ⟨checkContainers_isSome_iff hc, fun t => checkContainers_message_iff hc, ?_,
    checkContainers_append c⟩
  intro d hd
  rw [checkContainers_eq_none_iff hc, List.forall_mem_singleton]
  exact hd.fits

def pairCeiling : Ceiling :=
  ⟨⟨some ⟨"2", ⟨false, 2, 0⟩⟩, some ⟨"2Gi", ⟨false, 2147483648, 0⟩⟩, some .zero, none, none⟩, false⟩

/-- A container that keeps its requests and breaks both limits, and one that declares nothing. -/
def brokenPair : List Declared :=
  [⟨"first", some .zero, some .zero, some ⟨"2001m", ⟨false, 2001, -3⟩⟩,
      some ⟨"3Gi", ⟨false, 3221225472, 0⟩⟩⟩,
    ⟨"second", none, none, none, none⟩]

theorem verdict_is_firstViolation_brokenPair :
    pairCeiling.isUnlimited = false ∧
      FirstViolation pairCeiling brokenPair "error container first limits.CPU: 2001m > 2" := by
  have hc : pairCeiling.isUnlimited = false := rfl
  have hmessage : (checkContainers pairCeiling brokenPair).map Violation.message =
      some "error container first limits.CPU: 2001m > 2" := by decide +kernel
  obtain ⟨_, hfirst, _, _⟩ := verdict_is_firstViolation hc brokenPair
  exact ⟨hc, (hfirst _).mp hmessage⟩

end CeilingGate.Admission
