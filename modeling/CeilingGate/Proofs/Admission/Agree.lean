import CeilingGate.Proofs.Admission.Reference
import CeilingGate.Proofs.Workload.RawName

/-! Requests that get one answer. A workload is answered as the pods that it makes are, whatever its
kind, and a pod that awaits its name as the pod that has got one; unless a quantity ends the work, which
then ends alike. -/
namespace CeilingGate.Admission

open CeilingGate.Policy CeilingGate.Workload CeilingGate.Validation

variable {g : Generation} {r : Request} {k : Kind} {raw v w spec : Value} {s : Snapshot}
  {t name : RawText} {h x : String}

abbrev Answer := Except (Stop Workload.Fault) Response

/-- All answers are faults, or all are the same response. -/
def Agree (answers : List Answer) : Prop :=
  (∀ a ∈ answers, ∃ f, a = .error (.fault f)) ∨ ∃ response, ∀ a ∈ answers, a = .ok response

/-- Work that ends in an abort is no answer. -/
theorem not_agree_of_aborts {answers : List Answer} {answer : Answer} (hm : answer ∈ answers)
    (hall : ∀ answer ∈ answers, ∃ a, answer = .error (.abort a)) : ¬Agree answers := by
  obtain ⟨a, ha⟩ := hall answer hm
  rintro (hf | ⟨response, hr⟩)
  · obtain ⟨f, hf⟩ := hf answer hm
    cases ha.symm.trans hf
  · cases ha.symm.trans (hr answer hm)

/-- The response that the first violation, if there is one, leads to. -/
def verdict (r : Request) (v? : Option Violation) : Response :=
  ⟨r.uid, v?.isNone, v?.map fun v => ⟨v.message, none⟩⟩

theorem respond_judge (g : Generation) (r : Request) (s : Snapshot) :
    respond r (judge g s) = verdict r (checkSnapshot (g.resolve s.target) s) := by
  unfold judge
  cases checkSnapshot (g.resolve s.target) s <;> rfl

theorem checkSnapshot_of_containers (c : Ceiling) (h : s.kind.hasContainers = true) :
    checkSnapshot c s = checkContainers c s.containers := by
  have hs : s.kind.isStorage = false := by
    obtain hk | ⟨_, hs⟩ := Kind.claim_or_containers (ne_unrecognised_of_hasContainers h)
    · simp [hk, Kind.hasContainers] at h
    · exact hs
  unfold checkSnapshot checkContainers
  cases c.isUnlimited <;> simp [hs, h]

/-! ## Pods and their templates -/

/-- The kinds whose objects run containers. -/
def podKinds : List Kind := [.pod, .deployment, .statefulSet, .daemonSet, .job, .cronJob]

/-- The request with an object of a certain kind in place of its own. -/
def requestFor (r : Request) (k : Kind) (raw : Value) : Request :=
  { r with kind := { r.kind with kind := k.name }, object := raw }

/-- A generated pod has a hash and a suffix after the name of its template. -/
def generatedName (k : Kind) (t : RawText) (h x : String) : RawText :=
  if k = .pod then t ++ .plain ("-" ++ h ++ "-" ++ x) else t

theorem mem_podKinds : k ∈ podKinds ↔ k.hasContainers = true := by
  cases k <;> decide

theorem ofName_name (k : Kind) : Kind.ofName k.name = k := by
  cases k <;> rfl

/-- A generated pod is looked up under the name of its template. -/
theorem objectName_generated {m : Metadata} (ht : t ≠ .plain "") (hline : '\n' ∉ t.shape)
    (hh : IsWord h.toList) (hx : IsWord x.toList) (hm : m.name = generatedName k t h x)
    (requested : RawText) : objectName k m requested = t := by
  unfold objectName
  by_cases hk : k = .pod
  · subst hk
    have hname := normaliseRaw_generated hline hh hx
    rw [generatedName, if_pos rfl] at hm
    have hne : (t ++ .plain ("-" ++ h ++ "-" ++ x)).isEmpty = false := by
      rw [RawText.isEmpty_eq_false_iff]
      intro he
      have hshape := congrArg RawText.shape he
      simp [RawText.shape_append, RawText.shape_plain] at hshape
    simp [podName, hm, hne, hname]
  · rw [generatedName, if_neg hk] at hm
    simp [hk, hm, RawText.isEmpty_eq_false_iff.mpr ht]

theorem targetOf_generated {m : Metadata} (ht : t ≠ .plain "") (hline : '\n' ∉ t.shape)
    (hh : IsWord h.toList) (hx : IsWord x.toList) (hm : m.name = generatedName k t h x)
    (hns : r.namespaceName ≠ .plain "") :
    targetOf k m (requestedTarget r) = ⟨t, r.namespaceName⟩ := by
  simp [targetOf, objectName_generated ht hline hh hx hm, objectNamespace, requestedTarget,
    RawText.isEmpty_eq_false_iff.mpr hns]

theorem isSubject_requestFor (ho : r.operation ∈ checkedOperations) (hk : k.hasContainers = true) :
    IsSubject (requestFor r k raw) := by
  refine ⟨ho, ?_⟩
  by_contra hn
  exact ne_unrecognised_of_hasContainers hk
    ((ofName_name k).symm.trans ((ofName_eq_unrecognised_iff _).mpr hn))

/-- The answer to a workload comes from the specification of its pods and from the name of their
template. -/
theorem handle_requestFor (ht : t ≠ .plain "") (hline : '\n' ∉ t.shape) (hh : IsWord h.toList)
    (hx : IsWord x.toList) (hns : r.namespaceName ≠ .plain "") (ho : r.operation ∈ checkedOperations)
    (hb : BodyOf k raw (generatedName k t h x) spec) :
    match readPodSpec spec with
    | .ok cs =>
      (handle g (requestFor r k raw)).result =
        .ok (verdict r (checkContainers (g.resolve ⟨t, r.namespaceName⟩)
          (cs.map Container.declared)))
    | .error _ =>
      match (podQuantities spec).findSome? givesUp? with
      | some a => (handle g (requestFor r k raw)).result = .error (.abort a)
      | none => ∃ f, (handle g (requestFor r k raw)).result = .error (.fault f) := by
  have hs : IsSubject (requestFor r k raw) := isSubject_requestFor ho hb.hasContainers
  have hd := decode_of_bodyOf hb (requestedTarget r)
  have hdecoded : decoded (requestFor r k raw) = decode k raw (requestedTarget r) := by
    rw [decoded, show kindOf (requestFor r k raw) = k from ofName_name k]
    rfl
  rw [← hdecoded] at hd
  cases hp : readPodSpec spec with
  | ok cs =>
    rw [hp] at hd
    obtain ⟨m, hm, hd⟩ := hd
    dsimp only
    rw [handle_of_decoded hs hd, respond_judge, checkSnapshot_of_containers _ hb.hasContainers]
    simp only [ofContainers, targetOf_generated ht hline hh hx hm hns]
    rfl
  | error issues =>
    rw [hp] at hd
    cases ha : (podQuantities spec).findSome? givesUp? with
    | some a =>
      simp only [ha] at hd
      exact handle_of_undecoded hs hd
    | none =>
      simp only [ha] at hd
      obtain ⟨f, hd⟩ := hd
      exact ⟨f, handle_of_undecoded hs hd⟩

/-- A quantity that ends the work is found exactly if there is one that gives up. -/
theorem findSome?_givesUp?_eq_none_iff {qs : List Value} :
    qs.findSome? givesUp? = none ↔ ∀ q ∈ qs, ¬GivesUp q := by
  simp only [List.findSome?_eq_none_iff, ← givesUp?_isSome_iff, Option.not_isSome_iff_eq_none]

/-- A pod and the workloads that make such pods get one answer, whatever the specification of the pods is,
exactly if no quantity of it ends the work; else it ends alike for all. -/
theorem workloads_agree_iff (g : Generation) (r : Request) (hns : r.namespaceName ≠ .plain "")
    (ht : t ≠ .plain "") (hline : '\n' ∉ t.shape) (hh : IsWord h.toList) (hx : IsWord x.toList)
    (ho : r.operation ∈ checkedOperations) {bodies : Kind → Value}
    (hb : ∀ k ∈ podKinds, BodyOf k (bodies k) (generatedName k t h x) spec) :
    (Agree (podKinds.map fun k => (handle g (requestFor r k (bodies k))).result) ↔
        ∀ q ∈ podQuantities spec, ¬GivesUp q) ∧
      ((∃ q ∈ podQuantities spec, GivesUp q) →
        ∃ a, ∀ k ∈ podKinds, (handle g (requestFor r k (bodies k))).result = .error (.abort a)) := by
  have hanswer := fun k hk => handle_requestFor (g := g) ht hline hh hx hns ho (hb k hk)
  rw [← findSome?_givesUp?_eq_none_iff]
  have hsome : (∃ q ∈ podQuantities spec, GivesUp q) ↔
      ∃ a, (podQuantities spec).findSome? givesUp? = some a := by
    rw [← Option.isSome_iff_exists, List.findSome?_isSome_iff]
    simp only [givesUp?_isSome_iff]
  rw [hsome]
  have habort := abort?_readPodSpec spec
  unfold Agree
  simp only [List.forall_mem_map]
  cases hp : readPodSpec spec with
  | ok cs =>
    simp only [hp] at hanswer habort
    rw [← habort]
    refine ⟨iff_of_true (.inr ⟨_, hanswer⟩) rfl, ?_⟩
    rintro ⟨a, ha⟩
    cases ha
  | error issues =>
    simp only [hp] at hanswer
    cases ha : (podQuantities spec).findSome? givesUp? with
    | none =>
      simp only [ha] at hanswer
      refine ⟨iff_of_true (.inl hanswer) rfl, ?_⟩
      rintro ⟨a, ha⟩
      cases ha
    | some a =>
      simp only [ha] at hanswer
      refine ⟨iff_of_false ?_ (by simp), fun _ => ⟨a, hanswer⟩⟩
      rintro (hf | ⟨response, hr⟩)
      · obtain ⟨f, hf⟩ := hf .pod (by decide)
        cases (hanswer .pod (by decide)).symm.trans hf
      · cases (hanswer .pod (by decide)).symm.trans (hr .pod (by decide))

def record (fields : List (String × Value)) : Value :=
  .dict (fields.map fun (key, v) => (.text key, v))

/-- The plainest object of a kind that has a name and a specification of pods. -/
def workload (k : Kind) (name : String) (spec : Value) : Value :=
  let template := record [("template", record [("spec", spec)])]
  record [("metadata", record [("name", .text name)]),
    ("spec",
      match k with
      | .pod => spec
      | .cronJob => record [("jobTemplate", record [("spec", template)])]
      | _ => template)]

theorem bodyOf_workload (hk : k.hasContainers = true) (name : String) (spec : Value) :
    BodyOf k (workload k name spec) (.plain name) spec := by
  refine ⟨workload k name spec, ⟨name, "", ""⟩, rfl, ⟨hk, ?_, ?_⟩, rfl, rfl⟩
  · cases k <;> rfl
  · intro w hw
    cases k with
    | volumeClaim | unrecognised => cases hk
    | _ =>
      obtain rfl := Option.some.inj hw
      rfl

def podSpec (container : List (String × Value)) : Value :=
  record [("containers", .list [record container])]

/-- One container that declares nothing. -/
def bareSpec : Value := podSpec [("name", .text "app")]

/-- One container whose processor limit is half of a pair. -/
def halfSpec : Value :=
  podSpec [("resources", record [("limits", record [("cpu", .brokenText [0xd800])])])]

def shopRequest : Request where
  uid := "1"
  kind := .empty
  operation := "CREATE"
  name := ""
  namespaceName := "shop"
  object := .null
  userInfo := .empty
  dryRun? := none

/-- The template `web`, and a pod of it. -/
def webName (k : Kind) : String := if k = .pod then "web-7d9f8c6b5-x2z4k" else "web"

theorem bodyOf_web (hk : k ∈ podKinds) (spec : Value) :
    BodyOf k (workload k (webName k) spec)
      (generatedName k (.plain "web") "7d9f8c6b5" "x2z4k") spec := by
  have hname : generatedName k (.plain "web") "7d9f8c6b5" "x2z4k" = .plain (webName k) := by
    cases k <;> rfl
  rw [hname]
  exact bodyOf_workload (mem_podKinds.mp hk) _ _

/-- The answers to all six kinds of `web` with one specification of pods. -/
def webAnswers (spec : Value) : List Answer :=
  podKinds.map fun k => (handle .empty (requestFor shopRequest k (workload k (webName k) spec))).result

/-- All six kinds of `web` and of its pod are denied for the same missing request. -/
theorem workloads_agree_web :
    Agree (webAnswers bareSpec) ∧
      (handle .empty (requestFor shopRequest .cronJob (workload .cronJob "web" bareSpec))).result =
        .ok ⟨"1", false,
          some ⟨"error container app requests.CPU is empty, must be set", none⟩⟩ := by
  have hword : IsWord "7d9f8c6b5".toList ∧ IsWord "x2z4k".toList := by decide
  have hiff := (workloads_agree_iff .empty shopRequest (by decide) (by decide) (by decide) hword.1
    hword.2 (by decide) fun k hk => bodyOf_web hk bareSpec).1
  have hnone : podQuantities bareSpec = [] := rfl
  exact ⟨hiff.mpr (by simp [hnone]), rfl⟩

/-- None of the six is answered where a limit is half of a pair. -/
theorem workloads_half_unanswered :
    ¬Agree (webAnswers halfSpec) ∧
      ∀ answer ∈ webAnswers halfSpec, ∃ a, answer = .error (.abort a) := by
  have hall : ∀ answer ∈ webAnswers halfSpec, ∃ a, answer = .error (.abort a) := by
    intro answer hm
    obtain ⟨k, hk, rfl⟩ := List.mem_map.mp hm
    cases k with
    | volumeClaim | unrecognised => exact absurd hk (by decide)
    | _ => exact ⟨_, rfl⟩
  exact ⟨not_agree_of_aborts List.mem_cons_self hall, hall⟩

/-! ## Pods that await their names -/

variable {raw' : Value} {generateName : RawText} {suffix : String} {entries entries' : Entries}
  {requested : Target}

/-- Both decode to one snapshot, or both are refused. -/
def DecodeAlike (x y : Except (Stop Workload.Fault) Snapshot) : Prop :=
  ((∃ f, x = .error (.fault f)) ∧ ∃ f, y = .error (.fault f)) ∨ ∃ s, x = .ok s ∧ y = .ok s

/-- Decoding ends in the same abort, or in none and alike. -/
theorem decode_alike_or_abort (hk : k ≠ .unrecognised) (hv : bodyObject raw = .ok v)
    (hw : bodyObject raw' = .ok w) (hq : quantitiesOf k v = quantitiesOf k w)
    (h : (readSnapshot k requested v).toOption = (readSnapshot k requested w).toOption) :
    match (quantitiesOf k v).findSome? givesUp? with
    | some a => decode k raw requested = .error (.abort a) ∧ decode k raw' requested = .error (.abort a)
    | none => DecodeAlike (decode k raw requested) (decode k raw' requested) := by
  have ha := abort?_readSnapshot k requested v
  have ha' := abort?_readSnapshot k requested w
  rw [← hq] at ha'
  cases hfirst : (quantitiesOf k v).findSome? givesUp? with
  | some a =>
    exact ⟨(decode_of_object_eq_abort_iff hk hv).mpr (ha.trans hfirst),
      (decode_of_object_eq_abort_iff hk hw).mpr (ha'.trans hfirst)⟩
  | none =>
    rw [hfirst] at ha ha'
    dsimp only
    rw [decode_of_object hk hv, decode_of_object hk hw]
    cases hs : readSnapshot k requested v with
    | ok s =>
      cases hs' : readSnapshot k requested w with
      | ok s' =>
        rw [hs, hs'] at h
        obtain rfl := Option.some.inj h
        exact .inr ⟨s, rfl, rfl⟩
      | error issues =>
        rw [hs, hs'] at h
        cases h
    | error issues =>
      cases hs' : readSnapshot k requested w with
      | ok s' =>
        rw [hs, hs'] at h
        cases h
      | error issues' =>
        rw [hs] at ha
        rw [hs'] at ha'
        refine .inl ⟨⟨_, congrArg Except.error (stopOf_eq_fault ha)⟩, _,
          congrArg Except.error (stopOf_eq_fault ha')⟩

theorem agree_of_decodeAlike
    (h : DecodeAlike (decoded { r with object := raw }) (decoded { r with object := raw' })) :
    Agree [(handle g { r with object := raw }).result,
      (handle g { r with object := raw' }).result] := by
  unfold Agree
  simp only [List.forall_mem_cons, List.not_mem_nil, false_imp_iff, implies_true, and_true]
  by_cases hs : IsSubject r
  · have hs₁ : IsSubject { r with object := raw } := hs
    have hs₂ : IsSubject { r with object := raw' } := hs
    obtain ⟨⟨f, hf⟩, f', hf'⟩ | ⟨s, hx, hy⟩ := h
    · exact Or.inl ⟨⟨f, handle_of_undecoded hs₁ hf⟩, f', handle_of_undecoded hs₂ hf'⟩
    · exact Or.inr ⟨_, handle_of_decoded hs₁ hx, handle_of_decoded hs₂ hy⟩
  · exact Or.inr ⟨_, handle_of_not_subject hs, handle_of_not_subject hs⟩

theorem not_decodeAlike_of_abort {x y : Except (Stop Workload.Fault) Snapshot} {a : Abort}
    (h : x = .error (.abort a)) : ¬DecodeAlike x y := by
  rintro (⟨⟨f, hf⟩, -⟩ | ⟨s, hs, -⟩)
  · cases h.symm.trans hf
  · cases h.symm.trans hs

/-- What the two pods decode to is alike exactly if no quantity of theirs ends the work. -/
theorem decoded_of_awaitsName {name : RawText}
    (h : AwaitsName v w generateName name entries entries')
    (hk : kindOf r = .pod) (ht : (requestedTarget r).name = .plain "")
    (hg : generateName ≠ .plain "") (hn : name ≠ .plain "")
    (hstem : normaliseRaw (generateName ++ .plain "x") = normaliseRaw name)
    (hv : bodyObject raw = .ok v) (hw : bodyObject raw' = .ok w) :
    match (quantitiesOf .pod v).findSome? givesUp? with
    | some a => decoded { r with object := raw } = .error (.abort a) ∧
        decoded { r with object := raw' } = .error (.abort a)
    | none => DecodeAlike (decoded { r with object := raw }) (decoded { r with object := raw' }) := by
  have hdecode : ∀ raw, decoded { r with object := raw } = decode .pod raw (requestedTarget r) := by
    intro raw
    rw [decoded, show kindOf { r with object := raw } = .pod from hk]
    rfl
  have hspec : quantitiesOf .pod v = quantitiesOf .pod w := by
    have hat : at? (podSpecPath .pod) v = at? (podSpecPath .pod) w := by
      simp only [podSpecPath, at?, h.spec]
    simp only [quantitiesOf, hat, reduceCtorEq, if_false]
  rw [hdecode, hdecode]
  exact decode_alike_or_abort (by decide) hv hw hspec (h.readSnapshot_eq ht hg hn hstem)

/-- A pod that awaits its name is looked up as it is once it has one, whatever word its name ends in. It is
decoded and answered as it is then exactly if no quantity of it ends the work; else the work ends alike. -/
theorem awaited_agree_iff (g : Generation) (r : Request) (hk : r.kind.kind = .plain "Pod")
    (hn : r.name = .plain "") (hv : bodyObject raw = .ok v) (hw : bodyObject raw' = .ok w)
    (h : AwaitsName v w generateName (generateName ++ .plain suffix) entries entries')
    (hline : '\n' ∉ generateName.shape) (hcut : IsCut generateName.shape)
    (hs : IsWord suffix.toList) :
    (∀ m m', metadata? v = some m → metadata? w = some m' →
      targetOf .pod m (requestedTarget r) = targetOf .pod m' (requestedTarget r)) ∧
      (DecodeAlike (decoded { r with object := raw }) (decoded { r with object := raw' }) ↔
        ∀ q ∈ quantitiesOf .pod v, ¬GivesUp q) ∧
      (Agree [(handle g { r with object := raw }).result,
          (handle g { r with object := raw' }).result] ↔
        (r.operation ∈ checkedOperations → ∀ q ∈ quantitiesOf .pod v, ¬GivesUp q)) ∧
      (r.operation ∈ checkedOperations → (∃ q ∈ quantitiesOf .pod v, GivesUp q) → ∃ a,
        (handle g { r with object := raw }).result = .error (.abort a) ∧
          (handle g { r with object := raw' }).result = .error (.abort a)) := by
  have hstem := normaliseRaw_append_word hline hcut (a := "x") (by decide) hs
  have hgenerate : generateName ≠ .plain "" := by
    rintro rfl
    obtain ⟨u, hu⟩ | ⟨u, c, u', hu, _⟩ := hcut <;> simp [RawText.shape_plain] at hu
  have hname : generateName ++ .plain suffix ≠ .plain "" := by
    intro he
    have hshape := congrArg RawText.shape he
    rw [RawText.shape_append, RawText.shape_plain, RawText.shape_plain] at hshape
    exact hs.1 (List.append_eq_nil_iff.mp hshape).2
  have hkind : kindOf r = .pod := by
    rw [kindOf, hk]
    rfl
  have hcases := decoded_of_awaitsName h hkind hn hgenerate hname hstem hv hw
  have hsubject : ∀ raw, r.operation ∈ checkedOperations → IsSubject { r with object := raw } := by
    intro raw ho
    refine ⟨ho, ?_⟩
    rw [show ({ r with object := raw } : Request).kind.kind = .plain "Pod" from hk]
    decide
  refine ⟨fun m m' => h.target_eq hn hgenerate hname hstem, ?_⟩
  rw [← findSome?_givesUp?_eq_none_iff]
  have hsome : (∃ q ∈ quantitiesOf .pod v, GivesUp q) ↔
      ∃ a, (quantitiesOf .pod v).findSome? givesUp? = some a := by
    rw [← Option.isSome_iff_exists, List.findSome?_isSome_iff]
    simp only [givesUp?_isSome_iff]
  rw [hsome]
  cases ha : (quantitiesOf .pod v).findSome? givesUp? with
  | none =>
    simp only [ha] at hcases
    refine ⟨iff_of_true hcases rfl, iff_of_true (agree_of_decodeAlike hcases) fun _ => rfl, ?_⟩
    rintro - ⟨a, ha⟩
    cases ha
  | some a =>
    simp only [ha] at hcases
    obtain ⟨hx, hy⟩ := hcases
    refine ⟨iff_of_false (not_decodeAlike_of_abort hx) (by simp), ?_, ?_⟩
    · by_cases ho : r.operation ∈ checkedOperations
      · refine iff_of_false (not_agree_of_aborts List.mem_cons_self ?_) (by simp [ho])
        simp only [List.forall_mem_cons, List.not_mem_nil, false_imp_iff, implies_true, and_true]
        exact ⟨⟨a, handle_of_undecoded (hsubject _ ho) hx⟩, a, handle_of_undecoded (hsubject _ ho) hy⟩
      · have hpassed : ∀ raw, (handle g { r with object := raw }).result = .ok ⟨r.uid, true, none⟩ :=
          fun raw => handle_of_not_subject fun hs => ho hs.1
        refine iff_of_true (.inr ⟨⟨r.uid, true, none⟩, ?_⟩) (by simp [ho])
        simp [hpassed]
    · intro ho _
      exact ⟨a, handle_of_undecoded (hsubject _ ho) hx, handle_of_undecoded (hsubject _ ho) hy⟩

/-- A pod with the given metadata and specification. -/
def podOf (metadata : List (String × Value)) (spec : Value) : Value :=
  record [("metadata", record metadata), ("spec", spec)]

/-- The answers to a pod of `web` that awaits its name, and to the pod that it becomes. -/
def awaitedAnswers (spec : Value) : List Answer :=
  [(handle .empty { requestFor shopRequest .pod .null with
      object := podOf [("generateName", .text "web-7d9f8c6b5-")] spec }).result,
    (handle .empty { requestFor shopRequest .pod .null with
      object := podOf [("name", .text "web-7d9f8c6b5-x2z4k")] spec }).result]

theorem awaited_agree_web : Agree (awaitedAnswers bareSpec) := by
  have h : AwaitsName (podOf [("generateName", .text "web-7d9f8c6b5-")] bareSpec)
      (podOf [("name", .text "web-7d9f8c6b5-x2z4k")] bareSpec) (.plain "web-7d9f8c6b5-")
      (.plain "web-7d9f8c6b5-" ++ .plain "x2z4k") _ _ := ⟨rfl, rfl, rfl, rfl, rfl, rfl, rfl, rfl⟩
  have hcut : IsCut (RawText.plain "web-7d9f8c6b5-").shape :=
    .inl ⟨"web-7d9f8c6b5".toList, by decide⟩
  have hnone : quantitiesOf .pod (podOf [("generateName", .text "web-7d9f8c6b5-")] bareSpec) = [] :=
    rfl
  exact (awaited_agree_iff .empty (requestFor shopRequest .pod .null) rfl rfl rfl rfl h (by decide)
    hcut (by decide)).2.2.1.mpr fun _ => by simp [hnone]

/-- Neither of the two is answered where a limit is half of a pair. -/
theorem awaited_half_unanswered :
    ¬Agree (awaitedAnswers halfSpec) ∧
      ∀ answer ∈ awaitedAnswers halfSpec, ∃ a, answer = .error (.abort a) := by
  have hall : ∀ answer ∈ awaitedAnswers halfSpec, ∃ a, answer = .error (.abort a) := by
    intro answer hm
    obtain rfl | hm := List.mem_cons.mp hm
    · exact ⟨_, rfl⟩
    · rw [List.mem_singleton.mp hm]
      exact ⟨_, rfl⟩
  exact ⟨not_agree_of_aborts List.mem_cons_self hall, hall⟩

end CeilingGate.Admission
