import CeilingGate.Admission.Decision
import CeilingGate.CommandLine.Work
import CeilingGate.Json.Writer
import CeilingGate.Review.Reader
import CeilingGate.Review.Writer

/-! Reviewing a file: the answer that the service would give under a policy. -/
namespace CeilingGate.CommandLine

def deniedCode : Int := 2

def undecodable (path problem : RawText) : Outcome :=
  .failed (.ofDetails .decoding ("unable to decode admission review: " ++ problem)
    [("path", some path)])

/-- The review of a file and the request in it. -/
def readReview (files : Files) (path : String) : Except Outcome (Review × Request) :=
  if path.toList.contains '\x00' then .error (.ofAbort .badPath)
  else
    match files.read (.ofText path) with
    | .error cause => .error (undecodable path cause.message)
    | .ok bytes =>
      match Review.ofBytes bytes with
      | .error issues => .error (undecodable path (Review.rejection issues).summary)
      | .ok review =>
        match review.request? with
        | some request => .ok (review, request)
        | none =>
          .error (.failed (.ofDetails .decoding "admission review carries no request"
            [("path", some path)]))

/-- The review that is printed, as a text in JSON. -/
def reviewText (review : Review) : String := Json.line review.toValue

/-- Answers the request of a review that has been read. -/
def answerReview (console : Console) (g : Policy.Generation) (review : Review) (request : Request) :
    Work :=
  let handling := Admission.handle g request
  let events := g.parsedEvent :: handling.events
  match handling.result with
  | .ok response =>
    let code := if response.isAllowed then 0 else deniedCode
    let answered := { review with response? := some response }
    .printing console (.done code) [.json (reviewText answered)] events
  | .error (.fault f) => .ending (.failed (.ofDetails .decoding f.message f.details)) events
  | .error (.abort a) => .ending (.ofAbort a) events

def reviewFile (console : Console) (files : Files) (policy path : String) : Work :=
  match Policy.load files (.ofText policy) with
  | .error stop => .ending (.ofPolicyStop stop) []
  | .ok g =>
    match readReview files path with
    | .error outcome => .ending outcome [g.parsedEvent]
    | .ok (review, request) => answerReview console g review request

end CeilingGate.CommandLine
