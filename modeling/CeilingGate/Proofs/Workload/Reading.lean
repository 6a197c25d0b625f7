import CeilingGate.Proofs.Outcome
import CeilingGate.Workload.Snapshot

/-! What a decoded object depends on: its metadata, and what stands where its kind keeps the
specification of pods. Which issues a refused object has is left out of sight here. -/
namespace CeilingGate.Workload

open CeilingGate.Validation

variable {α β : Type} {k : Kind} {raw v w : Value} {t : Target} {s : Snapshot} {m : Metadata}
  {entries : Entries} {names : List String} {absent : α} {read : Value → Checked α}
  {model : String}

theorem toOption_map (f : α → β) (c : Checked α) : (c.map f).toOption = c.toOption.map f := by
  cases c <;> rfl

theorem toOption_apply (f : Checked (α → β)) (a : Checked α) :
    (f.apply a).toOption = f.toOption.bind fun f => a.toOption.map f := by
  cases f <;> cases a <;> rfl

theorem toOption_under (step : Step) (c : Checked α) : (c.under step).toOption = c.toOption := by
  cases c <;> rfl

/-- What a record holds under the first of the names that it has. -/
def held? (names : List String) : Value → Option Value
  | .dict entries => (named? entries names).map (·.2)
  | _ => none

/-- What stands at the end of a path of fields. -/
def at? : List (List String) → Value → Option Value
  | [], v => some v
  | names :: path, v => (held? names v).bind (at? path)

def items : Value → List Value
  | .list vs | .tuple vs | .set vs => vs
  | _ => []

/-- The items of the list at the end of a path. -/
def itemsAt (path : List (List String)) (v : Value) : List Value := ((at? path v).map items).getD []

def metadata? (v : Value) : Option Metadata :=
  (readVia "ObjectMeta" ["metadata"] .empty readMetadata v).toOption

/-- A text field of metadata; one that is missing is empty. -/
def text? (entries : Entries) (names : List String) : Option RawText :=
  (field entries names (.plain "") readText).toOption

theorem toOption_field :
    (field entries names absent read).toOption =
      match named? entries names with
      | some (_, v) => (read v).toOption
      | none => some absent := by
  unfold field
  cases named? entries names with
  | none => rfl
  | some e => exact toOption_under _ _

theorem toOption_readVia_held (h : held? names v = some w) :
    (readVia model names absent read v).toOption = (read w).toOption := by
  cases v with
  | dict entries =>
    obtain ⟨e, he, rfl⟩ := Option.map_eq_some_iff.mp h
    simp only [readVia, readRecord, toOption_field, he]
  | _ => cases h

theorem toOption_readObject (readSpec : Value → Checked α) (v : Value) :
    (readObject model absent readSpec v).toOption =
      (metadata? v).bind fun m =>
        (readVia model ["spec"] absent readSpec v).toOption.map fun a => (m, a) := by
  cases v with
  | dict entries =>
    simp only [readObject, readRecord, toOption_apply, toOption_map, metadata?, readVia,
      Option.bind_map, Function.comp_def]
  | _ => rfl

theorem toOption_readMetadata (entries : Entries) :
    (readMetadata (.dict entries)).toOption =
      (text? entries ["name"]).bind fun name =>
        (text? entries ["generateName", "generate_name"]).bind fun generateName =>
          (text? entries ["namespace"]).map fun namespaceName =>
            ⟨name, generateName, namespaceName⟩ := by
  simp only [readMetadata, readRecord, toOption_apply, toOption_map, text?]
  cases (field entries ["name"] (.plain "") readText).toOption <;>
    cases (field entries ["generateName", "generate_name"] (.plain "") readText).toOption <;> rfl

theorem readObject_metadata {readSpec : Value → Checked α} {r : Metadata × α}
    (h : readObject model absent readSpec v = .ok r) : metadata? v = some r.1 := by
  have ho : (readObject model absent readSpec v).toOption = _ := toOption_readObject readSpec v
  rw [h] at ho
  obtain ⟨m, hm, ho⟩ := Option.bind_eq_some_iff.mp ho.symm
  obtain ⟨a, _, rfl⟩ := Option.map_eq_some_iff.mp ho
  exact hm

/-- A snapshot's target is made of the object's metadata and of what was requested. -/
theorem readSnapshot_target (hk : k ≠ .unrecognised) (h : readSnapshot k t v = .ok s) :
    ∃ m, metadata? v = some m ∧ s.target = targetOf k m t := by
  cases k with
  | unrecognised => exact (hk rfl).elim
  | _ =>
    obtain ⟨r, hr, rfl⟩ := map_eq_ok.mp h
    exact ⟨r.1, readObject_metadata hr, rfl⟩

/-- An object that a body holds is decoded or refused. -/
theorem decode_of_object (hk : k ≠ .unrecognised) (hv : bodyObject raw = .ok v) :
    decode k raw t = (readSnapshot k t v).mapError (stopOf (.invalid k t)) := by
  simp only [decode, beq_iff_eq, hk, if_false, hv, bind, Except.bind]
  cases readSnapshot k t v <;> rfl

/-- Two pods that differ in their names: `v` awaits one that begins with `generateName`, and `w` is
called `name`. Beside that, `w` may have kept a field for the beginning of its name. -/
structure AwaitsName (v w : Value) (generateName name : RawText) (entries entries' : Entries) :
    Prop where
  metadata : held? ["metadata"] v = some (.dict entries)
  metadata' : held? ["metadata"] w = some (.dict entries')
  noName : text? entries ["name"] = some (.plain "")
  generateName : text? entries ["generateName", "generate_name"] = some generateName
  name : text? entries' ["name"] = some name
  generateName' : (text? entries' ["generateName", "generate_name"]).isSome
  namespaceName : text? entries ["namespace"] = text? entries' ["namespace"]
  spec : held? ["spec"] v = held? ["spec"] w

variable {generateName name : RawText} {entries' : Entries}

theorem toOption_readVia_congr (hv : held? names v = held? names w)
    (hdict : (held? ["metadata"] v).isSome ∧ (held? ["metadata"] w).isSome) :
    (readVia model names absent read v).toOption =
      (readVia model names absent read w).toOption := by
  cases v with
  | dict es =>
    cases w with
    | dict es' =>
      simp only [readVia, readRecord, toOption_field]
      simp only [held?] at hv
      cases hes : named? es names <;> cases hes' : named? es' names <;> simp_all
    | _ => cases hdict.2
  | _ => cases hdict.1

theorem AwaitsName.metadata_awaiting (h : AwaitsName v w generateName name entries entries') :
    metadata? v = (text? entries ["namespace"]).map fun ns => ⟨"", generateName, ns⟩ := by
  rw [metadata?, toOption_readVia_held h.metadata, toOption_readMetadata, h.noName, h.generateName]
  rfl

theorem AwaitsName.metadata_named (h : AwaitsName v w generateName name entries entries') :
    ∃ kept, metadata? w = (text? entries ["namespace"]).map fun ns => ⟨name, kept, ns⟩ := by
  obtain ⟨kept, hkept⟩ := Option.isSome_iff_exists.mp h.generateName'
  refine ⟨kept, ?_⟩
  rw [metadata?, toOption_readVia_held h.metadata', toOption_readMetadata, h.name, hkept,
    h.namespaceName]
  rfl

theorem targetOf_awaited (ht : t.name = .plain "") (hg : generateName ≠ .plain "")
    (hn : name ≠ .plain "")
    (hstem : normaliseRaw (generateName ++ .plain "x") = normaliseRaw name) (kept ns : RawText) :
    targetOf .pod ⟨"", generateName, ns⟩ t = targetOf .pod ⟨name, kept, ns⟩ t := by
  have hname := RawText.isEmpty_eq_false_iff.mpr hn
  have hgenerate := RawText.isEmpty_eq_false_iff.mpr hg
  have hnone : (RawText.plain "").isEmpty = true := rfl
  simp [targetOf, objectName, podName, objectNamespace, ht, hname, hgenerate, hnone, hstem]

/-- The two pods are looked up under one name where their names have one stem. -/
theorem AwaitsName.target_eq (h : AwaitsName v w generateName name entries entries')
    (ht : t.name = .plain "") (hg : generateName ≠ .plain "") (hn : name ≠ .plain "")
    (hstem : normaliseRaw (generateName ++ .plain "x") = normaliseRaw name) {m' : Metadata}
    (hm : metadata? v = some m) (hm' : metadata? w = some m') :
    targetOf .pod m t = targetOf .pod m' t := by
  obtain ⟨kept, hkept⟩ := h.metadata_named
  rw [h.metadata_awaiting] at hm
  rw [hkept] at hm'
  obtain ⟨ns, hns, rfl⟩ := Option.map_eq_some_iff.mp hm
  obtain ⟨ns', hns', rfl⟩ := Option.map_eq_some_iff.mp hm'
  obtain rfl := Option.some.inj (hns.symm.trans hns')
  exact targetOf_awaited ht hg hn hstem kept ns

/-- Where their names have one stem, the two pods have one snapshot or none. -/
theorem AwaitsName.readSnapshot_eq (h : AwaitsName v w generateName name entries entries')
    (ht : t.name = .plain "") (hg : generateName ≠ .plain "") (hn : name ≠ .plain "")
    (hstem : normaliseRaw (generateName ++ .plain "x") = normaliseRaw name) :
    (readSnapshot .pod t v).toOption = (readSnapshot .pod t w).toOption := by
  obtain ⟨kept, hkept⟩ := h.metadata_named
  have hspec : (readVia "Pod" ["spec"] [] readPodSpec v).toOption =
      (readVia "Pod" ["spec"] [] readPodSpec w).toOption :=
    toOption_readVia_congr h.spec ⟨by simp [h.metadata], by simp [h.metadata']⟩
  simp only [readSnapshot, toOption_map, readPod, toOption_readObject, h.metadata_awaiting, hkept,
    hspec]
  cases text? entries ["namespace"] with
  | none => rfl
  | some ns =>
    simp only [Option.map_some, Option.bind_some, Option.map_map, Function.comp_def, ofContainers,
      targetOf_awaited ht hg hn hstem kept ns]

/-! ## Pods and what is made from templates -/

/-- Where the objects of a kind keep the specification of their pods. -/
def podSpecPath : Kind → List (List String)
  | .pod => [["spec"]]
  | .cronJob => [["spec"], ["jobTemplate", "job_template"], ["spec"], ["template"], ["spec"]]
  | _ => [["spec"], ["template"], ["spec"]]

/-- An object of a kind has `spec` as the specification of its pods. Whatever metadata stand beside
it can be read. -/
structure Carries (k : Kind) (v spec : Value) : Prop where
  hasContainers : k.hasContainers = true
  spec_at : at? (podSpecPath k) v = some spec
  metadata_beside : ∀ w, at? (podSpecPath k).dropLast v = some w → (metadata? w).isSome

variable {spec : Value}

theorem toOption_readObject_held {readSpec : Value → Checked α} (hm : metadata? v = some m)
    (hs : held? ["spec"] v = some w) :
    (readObject model absent readSpec v).toOption = (readSpec w).toOption.map fun a => (m, a) := by
  rw [toOption_readObject, hm, toOption_readVia_held hs]
  rfl

/-- Below its own metadata, a template is read as the specification of its pods. -/
theorem toOption_readTemplatedSpec (ht : held? ["template"] v = some w)
    (hm : (metadata? w).isSome) (hs : held? ["spec"] w = some spec) :
    (readTemplatedSpec v).toOption = (readPodSpec spec).toOption := by
  obtain ⟨m, hm⟩ := Option.isSome_iff_exists.mp hm
  rw [readTemplatedSpec, toOption_readVia_held ht, readPodTemplate, toOption_map,
    toOption_readObject_held hm hs, Option.map_map]
  exact Option.map_id'

/-- Of an object that carries a specification only its metadata and that specification are decoded.
-/
theorem toOption_readSnapshot (h : Carries k v spec) (hm : metadata? v = some m) :
    (readSnapshot k t v).toOption =
      (readPodSpec spec).toOption.map fun cs => ofContainers k t (m, cs) := by
  obtain ⟨hc, hs, hb⟩ := h
  have htemplated : ∀ {a b}, held? ["spec"] v = some a → held? ["template"] a = some b →
      held? ["spec"] b = some spec → (metadata? b).isSome →
      (readTemplated v).toOption = (readPodSpec spec).toOption.map fun cs => (m, cs) := by
    intro a b ha hb hspec hmb
    rw [readTemplated, toOption_readObject_held hm ha, toOption_readTemplatedSpec hb hmb hspec]
  cases k with
  | volumeClaim | unrecognised => cases hc
  | pod =>
    simp only [podSpecPath, at?, Option.bind_fun_some] at hs
    simp only [readSnapshot, toOption_map, readPod, toOption_readObject_held hm hs, Option.map_map]
    rfl
  | cronJob =>
    simp only [podSpecPath, at?, Option.bind_eq_some_iff, Option.some.injEq] at hs
    obtain ⟨a, ha, job, hjob, b, hb', c, hc', e, he, rfl⟩ := hs
    have hmc : (metadata? c).isSome := hb c (by simp [podSpecPath, at?, ha, hjob, hb', hc'])
    simp only [readSnapshot, toOption_map, readCronJob, toOption_readObject_held hm ha,
      toOption_readVia_held hjob, readJobTemplate, toOption_readVia_held hb',
      toOption_readTemplatedSpec hc' hmc he, Option.map_map]
    rfl
  | deployment | statefulSet | daemonSet | job =>
    simp only [podSpecPath, at?, Option.bind_eq_some_iff, Option.some.injEq] at hs
    obtain ⟨a, ha, b, hb', e, he, rfl⟩ := hs
    have hmb : (metadata? b).isSome := hb b (by simp [podSpecPath, at?, ha, hb'])
    simp only [readSnapshot, toOption_map, htemplated ha hb' he hmb, Option.map_map]
    rfl

/-- A body holds an object of a kind that is called `name` and has `spec` as the specification of
its pods. -/
def BodyOf (k : Kind) (raw : Value) (name : RawText) (spec : Value) : Prop :=
  ∃ v m, bodyObject raw = .ok v ∧ Carries k v spec ∧ metadata? v = some m ∧ m.name = name

theorem BodyOf.hasContainers {name : RawText} (h : BodyOf k raw name spec) :
    k.hasContainers = true := by
  obtain ⟨_, _, _, hc, _⟩ := h
  exact hc.hasContainers

theorem ne_unrecognised_of_hasContainers (h : k.hasContainers = true) : k ≠ .unrecognised := by
  rintro rfl
  cases h

end CeilingGate.Workload
