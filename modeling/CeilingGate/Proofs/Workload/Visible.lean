import CeilingGate.Proofs.Validation.Checked
import CeilingGate.Proofs.Workload.Decode
import CeilingGate.Proofs.Workload.Reading

/-! The visible parts of an object, found by their paths: two names, what containers declare, and the
storage that a claim asks for. A snapshot holds these parts and no others. -/
namespace CeilingGate.Workload

open CeilingGate.Validation

variable {α : Type} {k : Kind} {v w : Value} {t : Target} {s : Snapshot} {m : Metadata}
  {entries : Entries} {names : List String} {path : List (List String)} {absent a : α}
  {read : Value → Checked α} {model : String} {c : Container} {cs : List Container}

/-- The text at the end of a path; one that is missing is empty. -/
def textAt (path : List (List String)) (v : Value) : RawText :=
  ((at? path v).bind fun w => (readText w).toOption).getD (.plain "")

/-- The quantity under a name in the mapping at the end of a path. -/
def quantityAt? (path : List (List String)) (name : RawText) (v : Value) : Option Quantity :=
  match at? path v with
  | some (.dict entries) => (spelled? name entries).bind fun w => (Quantity.ofValue w).toOption
  | _ => none

/-- What a container declares, as it stands in the object. -/
def declaredIn (v : Value) : Declared where
  name := textAt [["name"]] v
  cpuRequest? := quantityAt? [["resources"], ["requests"]] "cpu" v
  memoryRequest? := quantityAt? [["resources"], ["requests"]] "memory" v
  cpuLimit? := quantityAt? [["resources"], ["limits"]] "cpu" v
  memoryLimit? := quantityAt? [["resources"], ["limits"]] "memory" v

def nameIn : Value → RawText := textAt [["metadata"], ["name"]]

def generateNameIn : Value → RawText := textAt [["metadata"], ["generateName", "generate_name"]]

/-- The containers of an object, in order. -/
def containersIn (k : Kind) (v : Value) : List Declared :=
  (itemsAt (podSpecPath k ++ [["containers"]]) v).map declaredIn

/-- The storage that a claim asks for. -/
def storageIn? : Value → Option Quantity := quantityAt? [["spec"], ["resources"], ["requests"]] "storage"

/-- Two objects of a kind agree in all visible parts. -/
structure LooksAlike (k : Kind) (v w : Value) : Prop where
  name : nameIn v = nameIn w
  generateName : generateNameIn v = generateNameIn w
  containers : k.hasContainers = true → containersIn k v = containersIn k w
  storage : k = .volumeClaim → storageIn? v = storageIn? w

/-! ## Paths -/

theorem at?_cons_of_held (h : held? names v = some w) : at? (names :: path) v = at? path w := by
  simp [at?, h]

theorem at?_cons_of_none (h : held? names v = none) : at? (names :: path) v = none := by
  simp [at?, h]

/-- A field of a record is missing, or read from what the record holds under its names. -/
theorem field_dict_eq_ok (h : field entries names absent read = .ok a) :
    (held? names (.dict entries) = none ∧ a = absent) ∨
      ∃ w, held? names (.dict entries) = some w ∧ read w = .ok a := by
  rcases field_eq_ok h with ⟨hn, ha⟩ | ⟨n, w, hn, hread⟩
  · exact Or.inl ⟨by simp [held?, hn], ha⟩
  · exact Or.inr ⟨w, by simp [held?, hn], hread⟩

theorem readVia_eq_ok (h : readVia model names absent read v = .ok a) :
    (held? names v = none ∧ a = absent) ∨ ∃ w, held? names v = some w ∧ read w = .ok a := by
  cases v with
  | dict entries => exact field_dict_eq_ok h
  | _ => cases h

theorem text_of_field {s : RawText} (h : field entries names (.plain "") readText = .ok s) :
    s = textAt [names] (.dict entries) := by
  rcases field_dict_eq_ok h with ⟨hn, rfl⟩ | ⟨w, hn, hread⟩
  · simp [textAt, at?_cons_of_none hn]
  · rw [textAt, at?_cons_of_held hn]
    simp [at?, hread, Except.toOption]

/-! ## Names -/

theorem readMetadata_names (h : readMetadata v = .ok m) :
    m.name = textAt [["name"]] v ∧ m.generateName = textAt [["generateName", "generate_name"]] v := by
  cases v with
  | dict entries =>
    obtain ⟨_, _, hnames, _, rfl⟩ := apply_eq_ok.mp h
    obtain ⟨_, _, hfirst, hgenerate, rfl⟩ := apply_eq_ok.mp hnames
    obtain ⟨_, hname, he⟩ := checked_map_eq_ok.mp hfirst
    cases he
    exact ⟨text_of_field hname, text_of_field hgenerate⟩
  | _ => cases h

theorem metadata?_names (h : metadata? v = some m) :
    m.name = nameIn v ∧ m.generateName = generateNameIn v := by
  unfold metadata? at h
  cases hread : readVia "ObjectMeta" ["metadata"] .empty readMetadata v with
  | error issues =>
    rw [hread] at h
    cases h
  | ok m' =>
    rw [hread] at h
    obtain rfl := Option.some.inj h
    rcases readVia_eq_ok hread with ⟨hn, rfl⟩ | ⟨w, hn, hread⟩
    · simp only [nameIn, generateNameIn, textAt, at?_cons_of_none hn]
      exact ⟨rfl, rfl⟩
    · simp only [nameIn, generateNameIn, textAt, at?_cons_of_held hn]
      exact readMetadata_names hread

/-! ## Resources -/

theorem toOption_readQuantity (v : Value) :
    (readQuantity v).toOption = (Quantity.ofValue v).toOption := by
  unfold readQuantity
  cases Quantity.ofValue v with
  | ok q => rfl
  | error fault => cases h : fault.abort? <;> simp [h, Checked.fail, Except.toOption]

/-- Quantities that were read are found under the names that they stand under. -/
theorem lookup_quantities {found : List (RawText × Quantity)}
    (h : field entries names [] (readMapping readQuantity) = .ok found) (name : RawText) :
    found.lookup name = quantityAt? [names] name (.dict entries) := by
  rcases field_dict_eq_ok h with ⟨hn, rfl⟩ | ⟨w, hn, hread⟩
  · simp only [quantityAt?, at?_cons_of_none hn]
    rfl
  · cases w with
    | dict parts =>
      simp only [quantityAt?, at?_cons_of_held hn, lookup_readMapping hread, toOption_readQuantity]
      rfl
    | _ => cases hread

theorem readResources_lookup {r : Resources} (h : readResources v = .ok r) (name : RawText) :
    r.limits.lookup name = quantityAt? [["limits"]] name v ∧
      r.requests.lookup name = quantityAt? [["requests"]] name v := by
  cases v with
  | dict entries =>
    obtain ⟨_, _, hfirst, hrequests, rfl⟩ := apply_eq_ok.mp h
    obtain ⟨_, hlimits, he⟩ := checked_map_eq_ok.mp hfirst
    cases he
    exact ⟨lookup_quantities hlimits name, lookup_quantities hrequests name⟩
  | _ => cases h

/-- Resources that are missing or read hold what stands in them. -/
theorem resources_lookup {r : Resources}
    (h : (held? names v = none ∧ r = .empty) ∨
      ∃ w, held? names v = some w ∧ readResources w = .ok r) (name : RawText) :
    r.limits.lookup name = quantityAt? [names, ["limits"]] name v ∧
      r.requests.lookup name = quantityAt? [names, ["requests"]] name v := by
  rcases h with ⟨hn, rfl⟩ | ⟨w, hn, hread⟩
  · simp only [quantityAt?, at?_cons_of_none hn]
    exact ⟨rfl, rfl⟩
  · simp only [quantityAt?, at?_cons_of_held hn]
    exact readResources_lookup hread name

theorem readContainer_declared (h : readContainer v = .ok c) : c.declared = declaredIn v := by
  cases v with
  | dict entries =>
    obtain ⟨_, r, hfirst, hresources, rfl⟩ := apply_eq_ok.mp h
    obtain ⟨name, hname, he⟩ := checked_map_eq_ok.mp hfirst
    cases he
    have hr := resources_lookup (field_dict_eq_ok hresources)
    simp only [Container.declared, declaredIn, text_of_field hname, hr]
  | _ => cases h

/-! ## Containers -/

/-- A reader of containers yields what stands at a path. -/
def ReadsAt (path : List (List String)) (read : Value → Checked (List Container)) : Prop :=
  ∀ v cs, read v = .ok cs → cs.map Container.declared = (itemsAt path v).map declaredIn

theorem readsAt_list : ReadsAt [] (readList readContainer) := by
  intro v cs h
  have hitems : List.Forall₂ (fun w c => readContainer w = .ok c) (items v) cs := by
    cases v with
    | list vs | tuple vs | set vs => exact readListFrom_eq_ok h
    | _ => cases h
  change cs.map Container.declared = (items v).map declaredIn
  clear h
  generalize items v = vs at hitems
  induction hitems with
  | nil => rfl
  | cons hw _ ih => rw [List.map_cons, List.map_cons, ih, readContainer_declared hw]

theorem readsAt_of_held {readSpec : Value → Checked (List Container)} (hr : ReadsAt path readSpec)
    (h : (held? names v = none ∧ cs = []) ∨ ∃ w, held? names v = some w ∧ readSpec w = .ok cs) :
    cs.map Container.declared = (itemsAt (names :: path) v).map declaredIn := by
  rcases h with ⟨hn, rfl⟩ | ⟨w, hn, hread⟩
  · simp only [itemsAt, at?_cons_of_none hn]
    rfl
  · simp only [itemsAt, at?_cons_of_held hn]
    exact hr w cs hread

theorem readsAt_via {readSpec : Value → Checked (List Container)} (h : ReadsAt path readSpec)
    (model : String) (names : List String) :
    ReadsAt (names :: path) (readVia model names [] readSpec) :=
  fun _ _ hread => readsAt_of_held h (readVia_eq_ok hread)

/-- The specification of an object that was read stands beside its metadata. -/
theorem spec_of_readObject {readSpec : Value → Checked α} {r : Metadata × α}
    (h : readObject model absent readSpec v = .ok r) :
    (held? ["spec"] v = none ∧ r.2 = absent) ∨
      ∃ w, held? ["spec"] v = some w ∧ readSpec w = .ok r.2 := by
  cases v with
  | dict entries =>
    obtain ⟨_, a, hmetadata, hspec, rfl⟩ := apply_eq_ok.mp h
    obtain ⟨m, _, rfl⟩ := checked_map_eq_ok.mp hmetadata
    exact field_dict_eq_ok hspec
  | _ => cases h

theorem readsAt_podSpec : ReadsAt [["containers"]] readPodSpec := readsAt_via readsAt_list _ _

theorem readsAt_podTemplate : ReadsAt [["spec"], ["containers"]] readPodTemplate := by
  intro v cs h
  obtain ⟨r, hr, rfl⟩ := checked_map_eq_ok.mp h
  exact readsAt_of_held readsAt_podSpec (spec_of_readObject hr)

theorem readsAt_templatedSpec :
    ReadsAt [["template"], ["spec"], ["containers"]] readTemplatedSpec :=
  readsAt_via readsAt_podTemplate _ _

/-- The containers of a decoded object are those that stand in it. -/
theorem containers_of_readObject {r : Metadata × List Container}
    {readSpec : Value → Checked (List Container)} (hr : ReadsAt path readSpec)
    (h : readObject model [] readSpec v = .ok r) :
    r.2.map Container.declared = (itemsAt (["spec"] :: path) v).map declaredIn :=
  readsAt_of_held hr (spec_of_readObject h)

theorem readSnapshot_containers (hk : k.hasContainers = true) (h : readSnapshot k t v = .ok s) :
    s.containers = containersIn k v ∧ s.storage? = none := by
  cases k with
  | volumeClaim | unrecognised => cases hk
  | pod =>
    obtain ⟨r, hr, rfl⟩ := checked_map_eq_ok.mp h
    exact ⟨containers_of_readObject readsAt_podSpec hr, rfl⟩
  | cronJob =>
    obtain ⟨r, hr, rfl⟩ := checked_map_eq_ok.mp h
    have hjob := readsAt_via (readsAt_via readsAt_templatedSpec "JobTemplateSpec" ["spec"])
      "CronJobSpec" ["jobTemplate", "job_template"]
    exact ⟨containers_of_readObject hjob hr, rfl⟩
  | deployment | statefulSet | daemonSet | job =>
    obtain ⟨r, hr, rfl⟩ := checked_map_eq_ok.mp h
    exact ⟨containers_of_readObject readsAt_templatedSpec hr, rfl⟩

theorem readSnapshot_storage (h : readSnapshot .volumeClaim t v = .ok s) :
    s.containers = [] ∧ s.storage? = storageIn? v := by
  obtain ⟨r, hr, rfl⟩ := checked_map_eq_ok.mp h
  refine ⟨rfl, ?_⟩
  rcases spec_of_readObject hr with ⟨hn, he⟩ | ⟨w, hn, hread⟩
  · simp only [storageIn?, quantityAt?, at?_cons_of_none hn, ofClaim, he]
    rfl
  · simp only [storageIn?, quantityAt?, at?_cons_of_held hn]
    exact (resources_lookup (readVia_eq_ok hread) "storage").2

/-- Where a namespace is requested, the target is made of the two names alone. -/
theorem readSnapshot_visible_target (hk : k ≠ .unrecognised) (ht : t.namespaceName ≠ .plain "")
    (h : readSnapshot k t v = .ok s) :
    s.target = ⟨objectName k ⟨nameIn v, generateNameIn v, ""⟩ t.name, t.namespaceName⟩ := by
  obtain ⟨m, hm, hs⟩ := readSnapshot_target hk h
  obtain ⟨hname, hgenerate⟩ := metadata?_names hm
  simp [hs, targetOf, objectName, podName, objectNamespace, RawText.isEmpty_eq_false_iff.mpr ht, hname,
    hgenerate]

/-- Objects that agree in their visible parts have one snapshot, whatever else they hold. -/
theorem readSnapshot_of_looksAlike {s' : Snapshot} (hk : k ≠ .unrecognised)
    (ht : t.namespaceName ≠ .plain "") (hv : readSnapshot k t v = .ok s) (hw : readSnapshot k t w = .ok s')
    (h : LooksAlike k v w) : s = s' := by
  have htarget : s.target = s'.target := by
    rw [readSnapshot_visible_target hk ht hv, readSnapshot_visible_target hk ht hw, h.name,
      h.generateName]
  have hkind : s.kind = s'.kind := (readSnapshot_kind hv).trans (readSnapshot_kind hw).symm
  have hrest : s.containers = s'.containers ∧ s.storage? = s'.storage? := by
    obtain rfl | ⟨hc, _⟩ := Kind.claim_or_containers hk
    · obtain ⟨hcv, hsv⟩ := readSnapshot_storage hv
      obtain ⟨hcw, hsw⟩ := readSnapshot_storage hw
      rw [hcv, hcw, hsv, hsw, h.storage rfl]
      exact ⟨rfl, rfl⟩
    · obtain ⟨hcv, hsv⟩ := readSnapshot_containers hc hv
      obtain ⟨hcw, hsw⟩ := readSnapshot_containers hc hw
      rw [hcv, hcw, hsv, hsw, h.containers hc]
      exact ⟨rfl, rfl⟩
  cases s
  cases s'
  simp_all

end CeilingGate.Workload
