import CeilingGate.Admission.Decision
import CeilingGate.Proofs.Admission.Fit
import CeilingGate.Proofs.Workload.Decode

/-! What an admission decision means. Requests that are none of the policy's business pass; of the
others, those whose objects cannot be decoded are faults, and the rest are allowed exactly if they fit
the ceiling that applies to them. -/
namespace CeilingGate.Admission

open CeilingGate.Policy CeilingGate.Workload

variable {g : Generation} {r : Request} {a : Abort} {s : Snapshot}

def checkedOperations : List RawText := ["CREATE", "UPDATE"]

def checkedKinds : List RawText :=
  ["Pod", "Deployment", "StatefulSet", "DaemonSet", "Job", "CronJob", "PersistentVolumeClaim"]

/-- A request whose object is looked at. -/
def IsSubject (r : Request) : Prop := r.operation ∈ checkedOperations ∧ r.kind.kind ∈ checkedKinds

def kindOf (r : Request) : Kind := Kind.ofName r.kind.kind

def decoded (r : Request) : Except (Stop Workload.Fault) Snapshot :=
  decode (kindOf r) r.object (requestedTarget r)

/-- What an answer has to be. -/
structure Reference (g : Generation) (r : Request)
    (answer : Except (Stop Workload.Fault) Response) : Prop where
  passed : ¬ IsSubject r → answer = .ok ⟨r.uid, true, none⟩
  undecided : IsSubject r → (∀ s, decoded r ≠ .ok s) → ∃ f, answer = .error (.fault f)
  decided : IsSubject r → ∀ s, decoded r = .ok s →
    ∃ response, answer = .ok response ∧ response.uid = r.uid ∧
      (response.isAllowed = true ↔ Fits (g.resolve s.target) (kindOf r) s)

/-- The object of a request is looked at, and is a JSON text that its reader gives up on or has a quantity
of which no message can be told. -/
def IsGivenUp (r : Request) : Prop := IsSubject r ∧ GivesUpOn (kindOf r) r.object

theorem ofName_eq_unrecognised_iff (name : RawText) :
    Kind.ofName name = .unrecognised ↔ name ∉ checkedKinds := by
  constructor
  · intro h hm
    simp only [checkedKinds, List.mem_cons, List.not_mem_nil, or_false] at hm
    rcases hm with rfl | rfl | rfl | rfl | rfl | rfl | rfl <;> exact absurd h (by decide)
  · intro h
    by_cases hk : Kind.ofName name = .unrecognised
    · exact hk
    · refine (h ?_).elim
      rw [← Kind.name_ofName hk]
      generalize Kind.ofName name = k at hk ⊢
      cases k <;> simp_all [checkedKinds, Kind.name]

theorem isChecked_iff (operation : RawText) :
    isChecked operation = true ↔ operation ∈ checkedOperations := by
  simp [isChecked, checkedOperations]

theorem decide_of_not_subject (h : ¬ IsSubject r) : decide g r = .ok none := by
  unfold decide
  by_cases ho : isChecked r.operation = true
  · have hk : Kind.ofName r.kind.kind = .unrecognised := by
      rw [ofName_eq_unrecognised_iff]
      exact fun hk => h ⟨(isChecked_iff _).mp ho, hk⟩
    simp [ho, hk]
  · simp [ho]

theorem kindOf_ne (h : IsSubject r) : kindOf r ≠ .unrecognised := by
  intro hk
  exact (ofName_eq_unrecognised_iff _).mp hk h.2

theorem decide_of_subject (h : IsSubject r) : decide g r = (decoded r).map (judge g) := by
  have hk : Kind.ofName r.kind.kind ≠ .unrecognised := kindOf_ne h
  simp [decide, (isChecked_iff _).mpr h.1, hk, decoded, kindOf]

theorem isGivenUp_iff (h : IsSubject r) : IsGivenUp r ↔ ∃ a, decoded r = .error (.abort a) := by
  rw [IsGivenUp, decoded, decode_eq_abort_iff (kindOf_ne h)]
  exact and_iff_right h

theorem judge_eq_none_iff (h : IsSubject r) (hd : decoded r = .ok s) :
    judge g s = none ↔ Fits (g.resolve s.target) (kindOf r) s := by
  have hk := decode_kind (kindOf_ne h) hd
  simp only [judge, Option.map_eq_none_iff]
  rw [checkSnapshot_eq_none_iff (by rw [hk]; exact kindOf_ne h), hk]

theorem handle_of_not_subject (h : ¬ IsSubject r) :
    (handle g r).result = .ok ⟨r.uid, true, none⟩ := by
  simp [handle, decide_of_not_subject h, respond]

theorem handle_of_decoded (h : IsSubject r) (hd : decoded r = .ok s) :
    (handle g r).result = .ok (respond r (judge g s)) := by
  simp [handle, decide_of_subject h, hd, Except.map]

theorem handle_of_undecoded (h : IsSubject r) {stop : Stop Workload.Fault}
    (hd : decoded r = .error stop) : (handle g r).result = .error stop := by
  cases stop <;> simp [handle, decide_of_subject h, hd, Except.map]

theorem not_reference_of_isGivenUp (h : IsGivenUp r) : ¬ Reference g r (handle g r).result := by
  intro hr
  obtain ⟨a, ha⟩ := (isGivenUp_iff h.1).mp h
  obtain ⟨f, hf⟩ := hr.undecided h.1 (by simp [ha])
  rw [handle_of_undecoded h.1 ha] at hf
  cases hf

theorem reference_of_not_subject (h : ¬ IsSubject r) : Reference g r (handle g r).result := by
  rw [handle_of_not_subject h]
  exact ⟨fun _ => rfl, fun hs => (h hs).elim, fun hs => (h hs).elim⟩

theorem reference_of_subject (h : IsSubject r) (hu : ¬ IsGivenUp r) :
    Reference g r (handle g r).result := by
  refine ⟨fun hn => (hn h).elim, ?_, ?_⟩
  · intro _ hd
    cases hs : decoded r with
    | ok s => exact (hd s hs).elim
    | error stop =>
      cases stop with
      | fault f => exact ⟨f, handle_of_undecoded h hs⟩
      | abort a => exact (hu ((isGivenUp_iff h).mpr ⟨a, hs⟩)).elim
  · intro _ s hs
    refine ⟨_, handle_of_decoded h hs, rfl, ?_⟩
    rw [← judge_eq_none_iff h hs]
    simp [respond]

/-- Requests are answered as they have to be, except those with an object that decoding gives up on. -/
theorem handle_reference_iff (g : Generation) (r : Request) :
    Reference g r (handle g r).result ↔ ¬ IsGivenUp r := by
  constructor
  · intro hr hu
    exact not_reference_of_isGivenUp hu hr
  · intro hu
    by_cases hs : IsSubject r
    · exact reference_of_subject hs hu
    · exact reference_of_not_subject hs

/-- A pod given as a JSON text that is one number of 4301 digits. -/
def longNumberRequest : Request where
  uid := "1"
  kind := { ObjectKind.empty with kind := "Pod" }
  operation := "CREATE"
  name := ""
  namespaceName := ""
  object := .text (powerText 4300)
  userInfo := .empty
  dryRun? := none

theorem isGivenUp_longNumber : IsGivenUp longNumberRequest := by
  have hs : IsSubject longNumberRequest := by
    constructor <;> simp [longNumberRequest, checkedOperations, checkedKinds]
  exact ⟨hs, .inl ⟨powerText 4300, rfl, givesUp_powerText (by decide)⟩⟩

/-- The long number is answered neither with a response nor with a fault. -/
theorem not_reference_longNumber :
    ¬ Reference .empty longNumberRequest (handle .empty longNumberRequest).result :=
  not_reference_of_isGivenUp isGivenUp_longNumber

end CeilingGate.Admission
