import CeilingGate.CommandLine.Invocation

/-! Commands end in a code, whatever comes of them, unless what has to be logged of it cannot be: the details of
a failure bear a name that its event needs for itself, a crash has no text, or the log library fails. No
failure of the program's own commands bears such a name. -/
namespace CeilingGate.CommandLine

/-- The code that an outcome asks for. -/
inductive HasCode : Outcome → Int → Prop
  | done {code : Int} : HasCode (.done code) code
  | configuration {message : RawText} {details : List (RawText × Value)} :
      HasCode (.failed ⟨.configuration, message, details⟩) 10
  | decoding {message : RawText} {details : List (RawText × Value)} :
      HasCode (.failed ⟨.decoding, message, details⟩) 12
  | general {message : RawText} {details : List (RawText × Value)} :
      HasCode (.failed ⟨.general, message, details⟩) 127
  | crashed {typeName : String} {text : Except Abort RawText} : HasCode (.crashed typeName text) 127
  | interrupted : HasCode .interrupted 130

/-- No detail bears a name that the event of a failure needs for itself. -/
def Failure.HasOwnNames (f : Failure) : Prop := ∀ d ∈ f.details, d.1 ∉ failureNames

/-- The details of a failure have names of their own, and a crash has a text. -/
def Outcome.HasOwnNames : Outcome → Prop
  | .failed f => f.HasOwnNames
  | .crashed _ (.error _) => False
  | _ => True

/-- What has to be logged of an outcome can be, and the log library takes it. -/
structure IsLoggable (log : Logger) (o : Outcome) : Prop where
  names : o.HasOwnNames
  taken : ∀ e, o.event? = some (.ok e) → log e = .ok ()

variable {log : Logger} {r : Reporting} {o : Outcome} {f : Failure} {w : Work}
  {settings? : Option Settings} {reloader? : Option Reload.Reloader} {category : Category}
  {message : RawText} {a : Abort} {details : List (String × Option RawText)}

theorem hasCode (o : Outcome) : HasCode o o.code := by
  cases o with
  | done code => exact .done
  | crashed typeName text => exact .crashed
  | interrupted => exact .interrupted
  | failed f =>
    obtain ⟨category, message, details⟩ := f
    cases category with
    | general => exact .general
    | configuration => exact .configuration
    | decoding => exact .decoding

theorem event_of_hasOwnNames (h : f.HasOwnNames) : ∃ e, f.event = .ok e := by
  have hfind : f.details.find? (fun d => failureNames.contains d.1) = none := by
    simpa [List.find?_eq_none] using fun k v hd => h (k, v) hd
  rw [Failure.event, hfind]
  exact ⟨_, rfl⟩

theorem event_of_not_hasOwnNames (h : ¬ f.HasOwnNames) :
    ∃ name ∈ failureNames, f.event = .error (.repeatedName name) := by
  unfold Failure.event
  cases hfind : f.details.find? (fun d => failureNames.contains d.1) with
  | none =>
    refine absurd (fun d hd => ?_) h
    simpa using List.find?_eq_none.mp hfind d hd
  | some d => exact ⟨d.1, by simpa using List.find?_some hfind, rfl⟩

/-- An outcome has an event to log unless a name or a text is in the way. -/
theorem hasOwnNames_iff : o.HasOwnNames ↔ ∀ a, o.event? ≠ some (.error a) := by
  cases o with
  | done code => simp [Outcome.HasOwnNames, Outcome.event?]
  | interrupted => simp [Outcome.HasOwnNames, Outcome.event?]
  | crashed typeName text => cases text <;> simp [Outcome.HasOwnNames, Outcome.event?, Except.map]
  | failed f =>
    simp only [Outcome.HasOwnNames, Outcome.event?, ne_eq, Option.some.injEq]
    constructor
    · intro h a ha
      obtain ⟨e, he⟩ := event_of_hasOwnNames h
      cases he.symm.trans ha
    · intro h
      refine Classical.byContradiction fun hn => ?_
      obtain ⟨name, _, hname⟩ := event_of_not_hasOwnNames hn
      exact h _ hname

theorem log_of_event {e : Event} (h : o.event? = some (.ok e)) :
    o.log log = (log e).map fun _ => [e] := by
  rw [Outcome.log, h]
  dsimp only [bind, Except.bind]
  cases log e <;> rfl

/-- An outcome that can be logged is. -/
theorem log_of_isLoggable (h : IsLoggable log o) : ∃ events, o.log log = .ok events := by
  cases hevent : o.event? with
  | none => exact ⟨[], by rw [Outcome.log, hevent]⟩
  | some event =>
    cases event with
    | error a => exact absurd hevent (hasOwnNames_iff.mp h.names a)
    | ok e => exact ⟨[e], by rw [log_of_event hevent, h.taken e hevent, Except.map]⟩

/-- What keeps an outcome from being logged is a name or a text of its own, or the library. -/
theorem log_of_not_isLoggable (h : ¬ IsLoggable log o) :
    ∃ a, o.log log = .error a ∧ (o.HasOwnNames → ∃ e, log e = .error a) := by
  cases hevent : o.event? with
  | none =>
    exact absurd ⟨hasOwnNames_iff.mpr (by simp [hevent]), by simp [hevent]⟩ h
  | some event =>
    cases event with
    | error a =>
      exact ⟨a, by rw [Outcome.log, hevent]; rfl, fun hn => absurd hevent (hasOwnNames_iff.mp hn a)⟩
    | ok e =>
      cases hlog : log e with
      | error a => exact ⟨a, by rw [log_of_event hevent, hlog, Except.map], fun _ => ⟨e, hlog⟩⟩
      | ok _ =>
        refine absurd ⟨hasOwnNames_iff.mpr (by simp [hevent]), fun e' he' => ?_⟩ h
        cases hevent.symm.trans he'
        exact hlog

theorem conclude_of_isLoggable (h : r.logsFailures = true → IsLoggable log o) :
    ∃ e, conclude log r o = .ok e ∧ HasCode o e.code := by
  cases hlogs : r.logsFailures with
  | false => exact ⟨⟨o.code, _, []⟩, by rw [conclude, hlogs]; rfl, hasCode o⟩
  | true =>
    obtain ⟨events, hevents⟩ := log_of_isLoggable (h hlogs)
    exact ⟨⟨o.code, _, events⟩, by simp only [conclude, hlogs, if_true, hevents]; rfl, hasCode o⟩

theorem conclude_of_not_isLoggable (hlogs : r.logsFailures = true) (h : ¬ IsLoggable log o) :
    ∃ a, conclude log r o = .error a ∧ (o.HasOwnNames → ∃ e, log e = .error a) := by
  obtain ⟨a, ha, hlibrary⟩ := log_of_not_isLoggable h
  exact ⟨a, by simp [conclude, hlogs, ha, bind, Except.bind], hlibrary⟩

/-! ## The program's own commands -/

theorem hasOwnNames_printing {console : Console} {code : Int} {ps : List Printout}
    {events : List Event} :
    (Work.printing console (.done code) ps events).outcome.HasOwnNames := by
  unfold Work.printing
  dsimp only
  cases (shown console ps).2 <;> trivial

theorem hasOwnNames_ofDetails (h : ∀ d ∈ details, .plain d.1 ∉ failureNames) :
    (Failure.ofDetails category message details).HasOwnNames := by
  intro d hd
  obtain ⟨d', hd', rfl⟩ := List.mem_map.mp hd
  exact h d' hd'

theorem policyDetails_fresh (f : Policy.Fault) : ∀ d ∈ f.details, .plain d.1 ∉ failureNames := by
  cases f <;> simp [Policy.Fault.details, Policy.Fault.quantityDetails, failureNames]

theorem workloadDetails_fresh (f : Workload.Fault) :
    ∀ d ∈ f.details, .plain d.1 ∉ failureNames := by
  cases f <;> simp [Workload.Fault.details, failureNames]

theorem tlsDetails_fresh (f : Settings.TlsFault) : ∀ d ∈ f.details, .plain d.1 ∉ failureNames := by
  cases f <;> simp [Settings.TlsFault.details, failureNames]

theorem pathDetails_fresh (path : String) :
    ∀ d ∈ [("path", some (RawText.plain path))], .plain d.1 ∉ failureNames := by
  simp [failureNames]

theorem hasOwnNames_ofPolicyStop (stop : Stop Policy.Fault) :
    (Outcome.ofPolicyStop stop).HasOwnNames := by
  cases stop with
  | fault f => exact hasOwnNames_ofDetails (policyDetails_fresh f)
  | abort a => trivial

theorem hasOwnNames_checkConfig (console : Console) (files : Files) (path : String) :
    (checkConfig console files path).outcome.HasOwnNames := by
  unfold checkConfig
  split
  · exact hasOwnNames_printing
  · exact hasOwnNames_printing
  · trivial

theorem hasOwnNames_readReview {files : Files} {path : String} (h : readReview files path = .error o) :
    o.HasOwnNames := by
  have hpath := pathDetails_fresh path
  unfold readReview at h
  split at h
  · cases h
    trivial
  · split at h
    · cases h
      exact hasOwnNames_ofDetails hpath
    · split at h
      · cases h
        exact hasOwnNames_ofDetails hpath
      · split at h
        · cases h
        · cases h
          exact hasOwnNames_ofDetails hpath

theorem hasOwnNames_answerReview (console : Console) (g : Policy.Generation) (review : Review)
    (request : Request) :
    (answerReview console g review request).outcome.HasOwnNames := by
  unfold answerReview
  dsimp only
  split
  · exact hasOwnNames_printing
  · next f _ => exact hasOwnNames_ofDetails (workloadDetails_fresh f)
  · trivial

theorem hasOwnNames_reviewFile (console : Console) (files : Files) (policy path : String) :
    (reviewFile console files policy path).outcome.HasOwnNames := by
  unfold reviewFile
  split
  · exact hasOwnNames_ofPolicyStop _
  · split
    · next h => exact hasOwnNames_readReview h
    · exact hasOwnNames_answerReview _ _ _ _

theorem hasOwnNames_startService (files : Files) (s : Settings) :
    (startService files s).work.outcome.HasOwnNames := by
  unfold startService
  dsimp only
  split
  · exact hasOwnNames_ofPolicyStop _
  · split
    · trivial
    · unfold listen
      split
      · next f _ => exact hasOwnNames_ofDetails (tlsDetails_fresh f)
      · trivial

/-- What escapes from work with such an outcome has come from the log library. -/
theorem ofWork_escaped (hnames : w.outcome.HasOwnNames)
    (h : (ofWork log w settings? reloader?).finish = .escaped a) : ∃ e, log e = .error a := by
  by_cases hlog : IsLoggable log w.outcome
  · obtain ⟨e, he, _⟩ := conclude_of_isLoggable (r := .standard) fun _ => hlog
    simp [ofWork, he] at h
  · obtain ⟨a', ha', hlibrary⟩ := conclude_of_not_isLoggable (r := .standard) rfl hlog
    simp only [ofWork, ha', Finish.escaped.injEq] at h
    exact h ▸ hlibrary hnames

theorem serve_escaped {files : Files} {environment : Settings.Environment} {given : Values}
    (h : (serve log files environment given).finish = .escaped a) : ∃ e, log e = .error a := by
  unfold serve at h
  split at h
  · next e _ => exact ofWork_escaped (w := .ending (.ofAbort e) []) trivial h
  · exact ofWork_escaped (by simp [Work.ending, Outcome.HasOwnNames, Failure.HasOwnNames, settingsFailure]) h
  · next s _ =>
    unfold ofStartup at h
    split at h
    · cases h
    · exact ofWork_escaped (hasOwnNames_startService files s) h

/-- No invocation of the program lets a failure out, unless the log library fails. -/
theorem invoke_escaped {console : Console} {files : Files} {environment : Settings.Environment}
    {arguments : List String}
    (h : (invoke console log files environment arguments).finish = .escaped a) :
    ∃ e, log e = .error a := by
  unfold invoke at h
  split at h
  · next halt _ => cases halt <;> simp [ofHalt] at h
  · exact ofWork_escaped (hasOwnNames_checkConfig console files _) h
  · exact ofWork_escaped (hasOwnNames_reviewFile console files _ _) h
  · exact serve_escaped h

/-- A command ends in the code of its outcome, and nothing escapes, exactly if what has to be logged of the
outcome can be. Details with a name that the event of their failure needs for itself are the reason
why a log library that takes everything may be no help; the program's own failures have no such details, and
what escapes from an invocation is an error of the library. -/
theorem conclude_returns_iff (log : Logger) (r : Reporting) (o : Outcome) :
    ((∃ e, conclude log r o = .ok e ∧ HasCode o e.code) ↔
      (r.logsFailures = true → IsLoggable log o)) ∧
    (∀ f, r.logsFailures = true → o = .failed f → ¬ f.HasOwnNames →
      ∃ name ∈ failureNames, conclude log r o = .error (.repeatedName name)) ∧
    ∀ console files environment arguments a,
      (invoke console log files environment arguments).finish = .escaped a →
        ∃ e, log e = .error a := by
  refine ⟨⟨?_, conclude_of_isLoggable⟩, ?_, fun _ _ _ _ _ h => invoke_escaped h⟩
  · rintro ⟨e, he, _⟩ hlogs
    refine Classical.byContradiction fun hn => ?_
    obtain ⟨a, ha, _⟩ := conclude_of_not_isLoggable hlogs hn
    cases he.symm.trans ha
  · rintro f hlogs rfl hnames
    obtain ⟨name, hname, hevent⟩ := event_of_not_hasOwnNames hnames
    refine ⟨name, hname, ?_⟩
    simp [conclude, hlogs, Outcome.log, Outcome.event?, hevent, bind, Except.bind]

/-- A log library that takes every event. -/
def attentive : Logger := fun _ => .ok ()

/-- A detail called `message` gets in the way of the failure's own. -/
theorem conclude_messageDetail :
    conclude attentive .standard (.failed ⟨.configuration, "went wrong", [("message", .text "x")]⟩) =
      .error (.repeatedName "message") := rfl

end CeilingGate.CommandLine
