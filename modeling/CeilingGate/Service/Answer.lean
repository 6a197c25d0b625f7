import CeilingGate.Admission.Decision
import CeilingGate.Review.Reader
import CeilingGate.Review.Writer

/-! Answering reviews: the handler behind the admission endpoint. -/
namespace CeilingGate.Service

/-- What a decision engine answers. A fault is known by its message. -/
structure Verdict where
  result : Except (Stop String) Response
  counts : Metrics
  events : List Event

abbrev Engine := Request → Verdict

/-- The engine that decides under a generation of the policy. -/
def engineOf (g : Policy.Generation) : Engine := fun r =>
  let h := Admission.handle g r
  let result := h.result.mapError fun stop =>
    match stop with
    | .fault f => Stop.fault f.message
    | .abort a => Stop.abort a
  ⟨result, h.counts, h.events⟩

/-- Why a body is not answered with a review. -/
inductive Refusal
  | malformed (issues : List Validation.Issue)
  | noRequest
  | undecided (message : String)
deriving DecidableEq, Repr

namespace Refusal

def status : Refusal → Nat
  | .malformed _ | .noRequest => 400
  | .undecided _ => 503

def message : Refusal → String
  | .malformed issues => (Review.rejection issues).summary
  | .noRequest => "admission review carries no request"
  | .undecided message => message

end Refusal

/-- The review of a body, and the request in it. -/
def decodeReview (body : List UInt8) : Except Refusal (Review × Request) :=
  match Review.ofBytes body with
  | .error issues => .error (.malformed issues)
  | .ok review =>
    match review.request? with
    | none => .error .noRequest
    | some request => .ok (review, request)

/-- What answering one body has led to. -/
structure Answer where
  result : Except (Stop Refusal) Review
  counts : Metrics
  events : List Event

/-- The fields that name a request come before those that tell more. -/
def requestFields (r : Request) (more : List (RawText × Value)) : List (RawText × Value) :=
  ("uid", r.uid.toValue) :: ("kind", r.kind.kind.toValue) :: more

def undecodableEvent (refusal : Refusal) : List Event :=
  match refusal with
  | .malformed _ => [⟨.error, "unable_to_decode_request", [("error", .text refusal.message)]⟩]
  | _ => []

def receivedEvent (r : Request) : Event :=
  ⟨.debug, "handling_request",
    requestFields r [("operation", r.operation.toValue), ("namespace", r.namespaceName.toValue)]⟩

def answeredEvent (r : Request) (response : Response) : Event :=
  ⟨.debug, "handling_response", requestFields r [("allowed", .bool response.isAllowed)]⟩

def unansweredEvent (r : Request) (message : String) : Event :=
  ⟨.error, "unable_to_handle_admission_request",
    requestFields r [("error", .text message)]⟩

/-- Decodes a body, and puts the engine's response into the review. -/
def answer (engine : Engine) (body : List UInt8) : Answer :=
  match decodeReview body with
  | .error refusal => ⟨.error (.fault refusal), .zero, undecodableEvent refusal⟩
  | .ok (review, request) =>
    let verdict := engine request
    let before := receivedEvent request :: verdict.events
    match verdict.result with
    | .ok response =>
      ⟨.ok { review with response? := some response }, verdict.counts,
        before ++ [answeredEvent request response]⟩
    | .error (.fault message) =>
      ⟨.error (.fault (.undecided message)), verdict.counts,
        before ++ [unansweredEvent request message]⟩
    | .error (.abort a) => ⟨.error (.abort a), verdict.counts, before⟩

end CeilingGate.Service
