import CeilingGate.Json.Writer
import CeilingGate.Proofs.Validation.Checked
import CeilingGate.Proofs.Workload.Reading
import CeilingGate.Service.Answer

/-! Reviews as they are sent. Reading a review that was sent gives it back, and it holds the object of the
body that it answers as it came. -/
namespace CeilingGate

open CeilingGate.Validation

/-! ## Fields of records -/

section

variable {α β : Type} {fields : List (String × Value)} {names : List String}
  {read : Value → Checked α}

/-- The entries of a record that is written. -/
def recordEntries (fields : List (String × Value)) : Entries :=
  fields.map fun (name, v) => (.text name, v)

/-- A value, unless it is nothing. -/
def Value.present? : Value → Option Value
  | .null => none
  | v => some v

theorem Value.getD_present? (v : Value) : v.present?.getD .null = v := by
  cases v <;> rfl

theorem find?_recordEntries (fields : List (String × Value)) (key : String) :
    Value.find? (recordEntries fields) key = fields.lookup key := by
  induction fields with
  | nil => rfl
  | cons e rest ih =>
    obtain ⟨name, v⟩ := e
    have hsame : Value.sameKey (.text name) (.text key) = (key == name) := by
      simp [Value.sameKey, Value.sameScalar, Value.toNumeral?, Bool.beq_comm]
    unfold Value.find? recordEntries at ih ⊢
    cases hk : key == name with
    | true => simp [List.lookup_cons, hsame, hk]
    | false => simpa [List.lookup_cons, hsame, hk] using ih

@[simp] theorem readRecord_record (model : String) (fields : List (String × Value)) :
    readRecord model (.record fields) = .ok (recordEntries fields) := rfl

/-- A record holds what is first written under one of the names. -/
@[simp] theorem named?_recordEntries :
    named? (recordEntries fields) names =
      names.findSome? fun name => (fields.lookup name).map (name, ·) := by
  simp only [named?, find?_recordEntries]

@[simp] theorem lookup_optionalField (name key : String) (write : α → Value) (a? : Option α) :
    (optionalField name write a?).lookup key = if key == name then a?.map write else none := by
  cases a? <;> cases h : key == name <;> simp [optionalField, List.lookup_cons, h]

theorem objectField_eq (v : Value) : objectField v = optionalField "object" id v.present? := by
  cases v <;> rfl

@[simp] theorem under_ok (step : Step) (a : α) : Checked.under step (.ok a) = .ok a := rfl

@[simp] theorem apply_ok (f : α → β) (a : α) : Checked.apply (.ok f) (.ok a) = .ok (f a) := rfl

@[simp] theorem map_ok (f : α → β) (a : α) : Checked.map f (.ok a) = .ok (f a) := rfl

@[simp] theorem readBool_bool (b : Bool) : readBool (.bool b) = .ok b := rfl

@[simp] theorem readInt_int (i : Int) : readInt (.int i) = .ok i := rfl

theorem Value.record_ne_null (fields : List (String × Value)) : Value.record fields ≠ .null := nofun

@[simp] theorem readOptional_present {v : Value} (h : v ≠ .null) :
    readOptional read v = (read v).map some := by
  cases v with
  | null => exact (h rfl).elim
  | _ => rfl

@[simp] theorem readList_texts (ts : List RawText) :
    readList readText (.list (ts.map RawText.toValue)) = .ok ts := by
  have hfrom : ∀ position, readListFrom readText position (ts.map RawText.toValue) = .ok ts := by
    induction ts with
    | nil => exact fun _ => rfl
    | cons t rest ih =>
      intro position
      rw [List.map_cons, readListFrom, ih, readText_toValue]
      rfl
  exact hfrom 0

end

/-! ## Reading what was written -/

theorem ObjectKind.read_toValue (k : ObjectKind) : ObjectKind.read k.toValue = .ok k := by
  simp [read, toValue, field, List.lookup_cons]

theorem UserInfo.read_toValue (u : UserInfo) : UserInfo.read u.toValue = .ok u := by
  simp [read, toValue, field, List.lookup_cons]

theorem Request.read_toValue (r : Request) : Request.read r.toValue = .ok r := by
  have hobject := r.object.getD_present?
  obtain ⟨uid, kind, operation, name, namespaceName, object, userInfo, dryRun?⟩ := r
  -- The object and the flag are there or left out, independently of each other.
  cases hp : object.present? <;> cases dryRun? <;> rw [hp] at hobject <;>
    simpa [read, toValue, field, requiredField, objectField_eq, hp, List.lookup_cons, List.lookup_append,
      kind.read_toValue, userInfo.read_toValue] using hobject

theorem Status.read_toValue (s : Status) : Status.read s.toValue = .ok s := by
  obtain ⟨message, code?⟩ := s
  cases code? <;> simp [read, toValue, field, List.lookup_cons]

theorem Response.read_toValue (r : Response) : Response.read r.toValue = .ok r := by
  obtain ⟨uid, isAllowed, status?⟩ := r
  cases status? with
  | none => simp [read, toValue, field, requiredField, List.lookup_cons]
  | some s =>
    have hs : s.toValue ≠ .null := Value.record_ne_null _
    simp [read, toValue, field, requiredField, List.lookup_cons, hs, s.read_toValue]

/-- Reading a review that was sent gives it back. -/
theorem Review.read_toValue (r : Review) : Review.read r.toValue = .ok r := by
  obtain ⟨apiVersion, kind, request?, response?⟩ := r
  have hrequest : ∀ r : Request, r.toValue ≠ .null := fun _ => Value.record_ne_null _
  have hresponse : ∀ r : Response, r.toValue ≠ .null := fun _ => Value.record_ne_null _
  cases request? <;> cases response? <;>
    simp [read, toValue, field, List.lookup_cons, List.lookup_append, hrequest, hresponse,
      Request.read_toValue, Response.read_toValue]

/-! ## What a body holds -/

namespace Service

open CeilingGate.Workload

variable {engine : Engine} {body : List UInt8} {review : Review} {request : Request}
  {response : Response} {v : Value}

/-- A body that is decoded is the text of a value that the review is read from. -/
theorem value_of_decodeReview (h : decodeReview body = .ok (review, request)) :
    ∃ text v, Text.ofUtf8? body = some text ∧ Json.read Json.reviewDialect text.toList = .ok v ∧
      Review.read v = .ok review ∧ review.request? = some request := by
  unfold decodeReview at h
  cases hb : Review.ofBytes body with
  | error issues =>
    rw [hb] at h
    cases h
  | ok decoded =>
    simp only [hb] at h
    cases hr : decoded.request? with
    | none =>
      rw [hr] at h
      cases h
    | some asked =>
      rw [hr] at h
      cases h
      unfold Review.ofBytes Review.ofText at hb
      cases ht : Text.ofUtf8? body with
      | none =>
        rw [ht] at hb
        cases hb
      | some text =>
        simp only [ht] at hb
        cases hv : Json.read Json.reviewDialect text.toList with
        | error e =>
          rw [hv] at hb
          cases hb
        | ok v =>
          rw [hv] at hb
          exact ⟨text, v, rfl, hv, hb, hr⟩

/-- A request's object is what stands in the value it is read from. -/
theorem object_of_read (h : Request.read v = .ok request) :
    request.object = (held? ["object"] v).getD .null := by
  cases v with
  | dict entries =>
    simp only [Request.read, readRecord, apply_eq_ok, checked_map_eq_ok] at h
    obtain ⟨_, _, ⟨_, _, ⟨_, object, ⟨_, _, ⟨_, _, ⟨_, _, ⟨_, _, ⟨_, -, rfl⟩, -, rfl⟩, -, rfl⟩, -, rfl⟩,
      -, rfl⟩, hobject, rfl⟩, -, rfl⟩, -, rfl⟩ := h
    show object = _
    obtain ⟨hn, rfl⟩ | ⟨n, w, hn, hw⟩ := field_eq_ok hobject
    · simp [held?, hn]
    · cases hw
      simp [held?, hn]
  | _ => cases h

/-- A request that a review has was read from what the review's value holds. -/
theorem request_of_read (h : Review.read v = .ok review) (hr : review.request? = some request) :
    ∃ w, held? ["request"] v = some w ∧ Request.read w = .ok request := by
  cases v with
  | dict entries =>
    simp only [Review.read, readRecord, apply_eq_ok, checked_map_eq_ok] at h
    obtain ⟨_, _, ⟨_, request?, ⟨_, _, ⟨_, -, rfl⟩, -, rfl⟩, hrequest, rfl⟩, -, rfl⟩ := h
    obtain rfl : request? = some request := hr
    obtain ⟨_, h⟩ | ⟨n, w, hn, hw⟩ := field_eq_ok hrequest
    · cases h
    · have hne : w ≠ .null := by
        rintro rfl
        cases hw
      rw [readOptional_present hne] at hw
      obtain ⟨_, hw, he⟩ := checked_map_eq_ok.mp hw
      cases he
      exact ⟨w, by simp [held?, hn], hw⟩
  | _ => cases h

/-- Where the object of a request stands in a review. -/
def objectPath : List (List String) := [["request"], ["object"]]

theorem object_eq (h : Review.read v = .ok review) (hr : review.request? = some request) :
    request.object = (at? objectPath v).getD .null := by
  obtain ⟨w, hw, hread⟩ := request_of_read h hr
  rw [object_of_read hread]
  simp [objectPath, at?, hw]

/-- What is sent for a body that holds `v`: a review that is read as the one decoded with the response put
in, has the object of the body, and is sent the same again. -/
structure Echoes (v : Value) (review : Review) (request : Request) (response : Response)
    (sent : Value) : Prop where
  reads : Review.read sent = .ok { review with response? := some response }
  again : ∀ r, Review.read sent = .ok r → r.toValue = sent
  apiVersion : held? ["apiVersion"] sent = some review.apiVersion.toValue
  kind : held? ["kind"] sent = some review.kind.toValue
  request : held? ["request"] sent = some request.toValue
  object : at? objectPath sent = (at? objectPath v).bind Value.present?
  response : held? ["response"] sent = some response.toValue

theorem held?_record (fields : List (String × Value)) (name : String) :
    held? [name] (.record fields) = fields.lookup name := by
  have hentries : Value.record fields = .dict (recordEntries fields) := rfl
  rw [hentries, held?]
  simp [named?, find?_recordEntries, Function.comp_def]

theorem held?_object (r : Request) : held? ["object"] r.toValue = r.object.present? := by
  rw [Request.toValue, held?_record, objectField_eq]
  cases r.object.present? <;> simp [List.lookup_cons, List.lookup_append]

theorem Review.echoes (hv : Review.read v = .ok review) (hr : review.request? = some request) :
    Echoes v review request response { review with response? := some response }.toValue where
  reads := Review.read_toValue _
  again := by
    intro r hread
    rw [Review.read_toValue] at hread
    cases hread
    rfl
  apiVersion := by simp [Review.toValue, held?_record]
  kind := by simp [Review.toValue, held?_record, List.lookup_cons]
  request := by simp [Review.toValue, held?_record, List.lookup_cons, List.lookup_append, hr]
  object := by
    have hsent : at? objectPath ({ review with response? := some response } : Review).toValue =
        request.object.present? := by
      simp [objectPath, at?, Review.toValue, held?_record, List.lookup_cons, List.lookup_append, hr,
        held?_object]
    rw [hsent, object_eq hv hr]
    cases at? objectPath v <;> rfl
  response := by simp [Review.toValue, held?_record, List.lookup_cons, List.lookup_append, hr]

/-- A review that is answered is sent as it was decoded, with the engine's response put in. -/
theorem answer_echoes (h : decodeReview body = .ok (review, request))
    (he : (engine request).result = .ok response) :
    ∃ text v, Text.ofUtf8? body = some text ∧ Json.read Json.reviewDialect text.toList = .ok v ∧
      Review.read v = .ok review ∧
      (answer engine body).result = .ok { review with response? := some response } ∧
      Echoes v review request response ({ review with response? := some response } : Review).toValue := by
  obtain ⟨text, v, htext, hv, hread, hr⟩ := value_of_decodeReview h
  refine ⟨text, v, htext, hv, hread, ?_, Review.echoes hread hr⟩
  simp only [answer, h, he]

/-- What is sent for a body, as one line. -/
def sentLine? (engine : Engine) (body : List UInt8) : Option String :=
  (answer engine body).result.toOption.map fun r => Json.line r.toValue

theorem decoded_of_sentLine {line : String} (h : sentLine? engine body = some line) :
    ∃ review request response, decodeReview body = .ok (review, request) ∧
      (engine request).result = .ok response := by
  unfold sentLine? answer at h
  cases hd : decodeReview body with
  | error refusal =>
    rw [hd] at h
    cases h
  | ok decoded =>
    obtain ⟨review, request⟩ := decoded
    simp only [hd] at h
    cases he : (engine request).result with
    | ok response => exact ⟨review, request, response, rfl, he⟩
    | error stop =>
      rw [he] at h
      cases stop <;> cases h

/-- The review of a secret whose object holds nothing in places, with a response already there. -/
def answeredReview : String :=
  "\x7b\"request\": \x7b\"uid\": \"1\", \"kind\": \x7b\"kind\": \"Secret\"\x7d, " ++
    "\"object\": \x7b\"data\": null, \"owners\": [null]\x7d, \"dry_run\": null\x7d, " ++
    "\"response\": \x7b\"uid\": \"0\", \"allowed\": false\x7d\x7d"

def answeredLine : String :=
  "\x7b\"apiVersion\": \"admission.k8s.io/v1\", \"kind\": \"AdmissionReview\", \"request\": " ++
    "\x7b\"uid\": \"1\", \"kind\": \x7b\"group\": \"\", \"version\": \"\", \"kind\": \"Secret\"\x7d, " ++
    "\"operation\": \"\", \"name\": \"\", \"namespace\": \"\", " ++
    "\"object\": \x7b\"data\": null, \"owners\": [null]\x7d, " ++
    "\"userInfo\": \x7b\"username\": \"\", \"uid\": \"\", \"groups\": []\x7d\x7d, " ++
    "\"response\": \x7b\"uid\": \"1\", \"allowed\": true\x7d\x7d"

theorem answer_echoes_answeredReview :
    sentLine? (engineOf .empty) (Text.toUtf8 answeredReview) = some answeredLine ∧
      ∃ v review request response, Review.read v = .ok review ∧
        (answer (engineOf .empty) (Text.toUtf8 answeredReview)).result =
          .ok { review with response? := some response } ∧
        Echoes v review request response
          ({ review with response? := some response } : Review).toValue := by
  have hsent : sentLine? (engineOf .empty) (Text.toUtf8 answeredReview) = some answeredLine := by
    decide +kernel
  obtain ⟨review, request, response, hd, he⟩ := decoded_of_sentLine hsent
  obtain ⟨_, v, -, -, hread, hanswer, hechoes⟩ := answer_echoes hd he
  exact ⟨hsent, v, review, request, response, hread, hanswer, hechoes⟩

end Service

end CeilingGate
