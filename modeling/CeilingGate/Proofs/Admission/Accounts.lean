import CeilingGate.Policy.Store
import CeilingGate.Proofs.Admission.Reference

/-! What a run of admission calls owes to the requests in it, with policies published in between. Each
call that is not given up is answered, counted once as what it has come to, and logged if it denies. -/
namespace CeilingGate.Admission

open CeilingGate.Policy CeilingGate.Workload

inductive Incident
  | admission (r : Request)
  | publication (g : Generation)

def Incident.request? : Incident → Option Request
  | admission r => some r
  | publication _ => none

/-- The requests of a run, in order. -/
def requests (is : List Incident) : List Request := is.filterMap Incident.request?

/-- A call that has ended, with the generation that it was made under. -/
structure Call where
  generation : Generation
  request : Request
  handling : Handling

def callOf (g : Generation) (r : Request) : Call := ⟨g, r, handle g r⟩

/-- What a run has led to. -/
structure Ledger where
  store : Store
  counts : Metrics
  events : List Event
  calls : List Call

def Ledger.before (l l' : Ledger) : Ledger :=
  ⟨l'.store, l.counts + l'.counts, l.events ++ l'.events, l.calls ++ l'.calls⟩

/-- A call is made under the generation that is current. -/
def Incident.ledger (s : Store) : Incident → Ledger
  | admission r =>
    let call := callOf s.current r
    ⟨s, call.handling.counts, call.handling.events, [call]⟩
  | publication g =>
    let store := (s.publish g).2
    ⟨store, .zero, [store.publishedEvent], []⟩

/-- A run. It goes on after a call that is given up. -/
def ledger (s : Store) : List Incident → Ledger
  | [] => ⟨s, .zero, [], []⟩
  | i :: rest => (i.ledger s).before (ledger (i.ledger s).store rest)

/-- What a call can come to. -/
inductive Fate
  | allowed
  | denied
  | failed
  | lost
deriving DecidableEq, Repr

def Call.fate (c : Call) : Fate :=
  match c.handling.result with
  | .ok response => if response.isAllowed then .allowed else .denied
  | .error (.fault _) => .failed
  | .error (.abort _) => .lost

/-- The counters that a call moves, each by one. -/
def Fate.counts : Fate → Metrics
  | allowed => .oneAllowed
  | denied => .oneDenied
  | failed => .oneError
  | lost => .zero

/-- The message of the status in the response. -/
def Call.message? (c : Call) : Option RawText :=
  match c.handling.result with
  | .ok response => response.status?.map (·.message)
  | .error _ => none

/-- What the denials in a log give as their reasons. -/
def reasons (es : List Event) : List (Option Value) :=
  (es.filter (·.name == "admission_denied")).map (·.fields.lookup (.plain "reason"))

def asReasons (ms : List RawText) : List (Option Value) := ms.map fun m => some m.toValue

/-- A call that ends as it should. The reason of a denial is the message of the violation that the check
finds; it is in the response, and once in the log. -/
structure Call.IsSettled (c : Call) : Prop where
  ended : (∃ response, c.handling.result = .ok response ∧ response.uid = c.request.uid) ∨
    ∃ f, c.handling.result = .error (.fault f)
  counted : c.handling.counts = c.fate.counts
  stated : ∀ response, c.handling.result = .ok response →
    (response.status?.isSome = true ↔ response.isAllowed = false)
  judged : IsSubject c.request → ∀ s, decoded c.request = .ok s →
    c.message? = (checkSnapshot (c.generation.resolve s.target) s).map Violation.message
  logged : reasons c.handling.events = asReasons c.message?.toList

/-- What a ledger says of the calls for a row of requests, whatever they have come to. -/
structure Ledger.IsKept (rs : List Request) (l : Ledger) : Prop where
  answered : l.calls.map (·.request) = rs
  settled : ∀ c ∈ l.calls, c.IsSettled ↔ ¬ IsGivenUp c.request
  lost : ∀ c ∈ l.calls, c.fate = .lost ↔ IsGivenUp c.request
  allowed : l.counts.allowed = (l.calls.map (·.fate)).count .allowed
  denied : l.counts.denied = (l.calls.map (·.fate)).count .denied
  errors : l.counts.errors = (l.calls.map (·.fate)).count .failed
  logged : reasons l.events = asReasons (l.calls.filterMap (·.message?))

/-- All calls end as they should, and the counters add up to the number of calls. -/
structure Ledger.IsComplete (l : Ledger) : Prop where
  settled : ∀ c ∈ l.calls, c.IsSettled
  total : l.counts.allowed + l.counts.denied + l.counts.errors = l.calls.length

variable {g : Generation} {r : Request} {d? : Option Denial} {f : Workload.Fault} {a : Abort}
  {l l' : Ledger} {rs rs' : List Request}

/-! ## One call -/

theorem isGivenUp_iff_decide (g : Generation) (r : Request) :
    IsGivenUp r ↔ ∃ a, decide g r = .error (.abort a) := by
  by_cases hs : IsSubject r
  · rw [isGivenUp_iff hs, decide_of_subject hs]
    cases decoded r <;> simp [Except.map]
  · constructor
    · intro h
      exact (hs h.1).elim
    · rintro ⟨a, ha⟩
      rw [decide_of_not_subject hs] at ha
      cases ha

theorem callOf_of_decision (h : decide g r = .ok d?) :
    callOf g r =
      ⟨g, r, .ok (respond r d?), .ofDecision d?.isNone, (d?.map (denialEvent r)).toList⟩ := by
  simp [callOf, handle, h]

theorem callOf_of_fault (h : decide g r = .error (.fault f)) :
    callOf g r = ⟨g, r, .error (.fault f), .oneError, [faultEvent r f]⟩ := by
  simp [callOf, handle, h]

theorem callOf_of_abort (h : decide g r = .error (.abort a)) :
    callOf g r = ⟨g, r, .error (.abort a), .zero, []⟩ := by
  simp [callOf, handle, h]

/-- The reason of a decision is that of the check that it is made by. -/
theorem message_of_decision (h : decide g r = .ok d?) (hs : IsSubject r) {s : Snapshot}
    (hd : decoded r = .ok s) :
    d?.map (·.violation.message) =
      (checkSnapshot (g.resolve s.target) s).map Violation.message := by
  rw [decide_of_subject hs, hd] at h
  obtain rfl := Except.ok.inj h
  simp [judge, Function.comp_def]

theorem isSettled_of_decision (h : decide g r = .ok d?) : (callOf g r).IsSettled := by
  have hmessage : (respond r d?).status?.map (·.message) = d?.map (·.violation.message) := by
    simp [respond, Function.comp_def]
  rw [callOf_of_decision h]
  refine ⟨.inl ⟨_, rfl, rfl⟩, ?_, ?_, ?_, ?_⟩
  · cases d? <;> rfl
  · rintro response ⟨⟩
    cases d? <;> simp [respond]
  · intro hs s hd
    exact hmessage.trans (message_of_decision h hs hd)
  · cases d? <;> rfl

theorem isSettled_of_fault (h : decide g r = .error (.fault f)) : (callOf g r).IsSettled := by
  rw [callOf_of_fault h]
  refine ⟨.inr ⟨f, rfl⟩, rfl, ?_, ?_, rfl⟩
  · rintro response ⟨⟩
  · intro hs s hd
    rw [decide_of_subject hs, hd] at h
    cases h

theorem not_isSettled_of_abort (h : decide g r = .error (.abort a)) : ¬ (callOf g r).IsSettled := by
  rw [callOf_of_abort h]
  rintro ⟨⟨response, hr, -⟩ | ⟨f, hf⟩, -⟩
  · cases hr
  · cases hf

theorem isSettled_iff (g : Generation) (r : Request) :
    (callOf g r).IsSettled ↔ ¬ IsGivenUp r := by
  rw [isGivenUp_iff_decide g]
  cases hd : decide g r with
  | ok d? => simp [isSettled_of_decision hd]
  | error stop =>
    cases stop with
    | fault f => simp [isSettled_of_fault hd]
    | abort a => simp [not_isSettled_of_abort hd]

theorem fate_eq_lost_iff (g : Generation) (r : Request) :
    (callOf g r).fate = .lost ↔ IsGivenUp r := by
  rw [isGivenUp_iff_decide g]
  cases hd : decide g r with
  | ok d? => cases d? <;> simp [callOf_of_decision hd, Call.fate, respond]
  | error stop =>
    cases stop with
    | fault f => simp [callOf_of_fault hd, Call.fate]
    | abort a => simp [callOf_of_abort hd, Call.fate]

/-- Calls that are given up are counted as what they have come to, which is nothing. -/
theorem counts_callOf (g : Generation) (r : Request) :
    (callOf g r).handling.counts = (callOf g r).fate.counts := by
  by_cases hu : IsGivenUp r
  · obtain ⟨a, ha⟩ := (isGivenUp_iff_decide g r).mp hu
    rw [callOf_of_abort ha]
    rfl
  · exact ((isSettled_iff g r).mpr hu).counted

theorem reasons_callOf (g : Generation) (r : Request) :
    reasons (callOf g r).handling.events = asReasons (callOf g r).message?.toList := by
  by_cases hu : IsGivenUp r
  · obtain ⟨a, ha⟩ := (isGivenUp_iff_decide g r).mp hu
    rw [callOf_of_abort ha]
    rfl
  · exact ((isSettled_iff g r).mpr hu).logged

/-! ## Runs -/

theorem Fate.counts_eq_count (f : Fate) :
    f.counts.allowed = [f].count .allowed ∧ f.counts.denied = [f].count .denied ∧
      f.counts.errors = [f].count .failed := by
  cases f <;> decide

theorem isKept_callOf (s : Store) (g : Generation) (r : Request) :
    Ledger.IsKept [r]
      ⟨s, (callOf g r).handling.counts, (callOf g r).handling.events, [callOf g r]⟩ := by
  obtain ⟨ha, hd, he⟩ := (callOf g r).fate.counts_eq_count
  rw [counts_callOf]
  refine ⟨rfl, ?_, ?_, ha, hd, he, ?_⟩
  · rintro c (_ | ⟨_, ⟨⟩⟩)
    exact isSettled_iff g r
  · rintro c (_ | ⟨_, ⟨⟩⟩)
    exact fate_eq_lost_iff g r
  · rw [reasons_callOf]
    cases hm : (callOf g r).message? <;> simp [hm]

theorem isKept_of_silent (s : Store) {es : List Event} (h : reasons es = []) :
    Ledger.IsKept [] ⟨s, .zero, es, []⟩ :=
  ⟨rfl, by simp, by simp, rfl, rfl, rfl, h⟩

theorem isKept_incident (s : Store) (i : Incident) : (i.ledger s).IsKept i.request?.toList := by
  cases i with
  | admission r => exact isKept_callOf s s.current r
  | publication g => exact isKept_of_silent _ rfl

theorem isKept_before (h : l.IsKept rs) (h' : l'.IsKept rs') : (l.before l').IsKept (rs ++ rs') where
  answered := by simp [Ledger.before, h.answered, h'.answered]
  settled := List.forall_mem_append.mpr ⟨h.settled, h'.settled⟩
  lost := List.forall_mem_append.mpr ⟨h.lost, h'.lost⟩
  allowed := by simp [Ledger.before, Metrics.add_eq, h.allowed, h'.allowed]
  denied := by simp [Ledger.before, Metrics.add_eq, h.denied, h'.denied]
  errors := by simp [Ledger.before, Metrics.add_eq, h.errors, h'.errors]
  logged := by
    have hl : reasons (l.events ++ l'.events) = reasons l.events ++ reasons l'.events := by
      simp [reasons]
    simp [Ledger.before, hl, h.logged, h'.logged, asReasons]

theorem requests_cons (i : Incident) (is : List Incident) :
    requests (i :: is) = i.request?.toList ++ requests is := by
  cases hi : i.request? <;> simp [requests, hi]

theorem isKept_ledger (s : Store) (is : List Incident) : (ledger s is).IsKept (requests is) := by
  induction is generalizing s with
  | nil => exact isKept_of_silent s rfl
  | cons i rest ih =>
    rw [requests_cons]
    exact isKept_before (isKept_incident s i) (ih (i.ledger s).store)

theorem Ledger.before_assoc (l l' l'' : Ledger) :
    (l.before l').before l'' = l.before (l'.before l'') := by
  simp [before, Metrics.add_assoc]

theorem ledger_append (s : Store) (is js : List Incident) :
    ledger s (is ++ js) = (ledger s is).before (ledger (ledger s is).store js) := by
  induction is generalizing s with
  | nil => simp [ledger, Ledger.before]
  | cons i rest ih =>
    rw [List.cons_append, ledger, ih, ledger, Ledger.before_assoc]
    rfl

/-- At whatever point of a run a call is made, it moves the counters by what it comes to. -/
theorem counts_admission (s : Store) (is : List Incident) (r : Request) :
    (ledger s (is ++ [.admission r])).counts =
      (ledger s is).counts + (callOf (ledger s is).store.current r).fate.counts := by
  rw [ledger_append, ← counts_callOf]
  rfl

/-- The calls of a run are counted, those apart that are given up. -/
theorem Ledger.IsKept.total (h : l.IsKept rs) :
    l.counts.allowed + l.counts.denied + l.counts.errors + (l.calls.map (·.fate)).count .lost =
      rs.length := by
  rw [h.allowed, h.denied, h.errors, ← h.answered, List.length_map]
  induction l.calls with
  | nil => rfl
  | cons c rest ih =>
    cases hc : c.fate <;> simp [hc] <;> omega

theorem isComplete_iff (h : l.IsKept rs) : l.IsComplete ↔ ∀ r ∈ rs, ¬ IsGivenUp r := by
  rw [← h.answered, List.forall_mem_map]
  constructor
  · intro hc c hm
    exact (h.settled c hm).mp (hc.settled c hm)
  · intro hu
    have hlost : (l.calls.map (·.fate)).count .lost = 0 := by
      rw [List.count_eq_zero, List.mem_map]
      rintro ⟨c, hm, hf⟩
      exact hu c hm ((h.lost c hm).mp hf)
    refine ⟨fun c hm => (h.settled c hm).mpr (hu c hm), ?_⟩
    have htotal := h.total
    rw [← h.answered, List.length_map] at htotal
    omega

/-- In every run each call that is not given up is answered, counted and logged as it should be, and the
next call moves the counters by what it comes to. All calls are settled, and the counters add up to their
number, exactly if no call is given up. -/
theorem ledger_isKept (s : Store) (is : List Incident) :
    (ledger s is).IsKept (requests is) ∧
      (∀ r, (ledger s (is ++ [.admission r])).counts =
        (ledger s is).counts + (callOf (ledger s is).store.current r).fate.counts) ∧
      ((ledger s is).IsComplete ↔ ∀ r ∈ requests is, ¬ IsGivenUp r) :=
  ⟨isKept_ledger s is, counts_admission s is, isComplete_iff (isKept_ledger s is)⟩

theorem counts_of_isGivenUp (s : Store) (hu : IsGivenUp r) :
    (ledger s [.admission r]).counts = .zero := by
  rw [← List.nil_append [Incident.admission r], counts_admission, (fate_eq_lost_iff _ r).mpr hu]
  rfl

/-- The long number is answered by nothing and counted as nothing. -/
theorem not_isComplete_longNumber :
    ¬ (ledger .empty [.admission longNumberRequest]).IsComplete ∧
      (ledger .empty [.admission longNumberRequest]).calls.length = 1 ∧
      (ledger .empty [.admission longNumberRequest]).counts = .zero := by
  have hkept := isKept_ledger .empty [.admission longNumberRequest]
  refine ⟨fun hc => ?_, rfl, counts_of_isGivenUp _ isGivenUp_longNumber⟩
  exact (isComplete_iff hkept).mp hc _ (List.mem_singleton_self _) isGivenUp_longNumber

end CeilingGate.Admission
