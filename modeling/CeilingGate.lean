import CeilingGate.Main
import CeilingGate.Proofs.Reload.Accounts
import CeilingGate.Proofs.Outcome
import CeilingGate.Proofs.Policy.Layers
import CeilingGate.Proofs.Admission.Fit
import CeilingGate.Proofs.Workload.Decode
import CeilingGate.Proofs.Admission.Reference
import CeilingGate.Proofs.Yaml.Cursor
import CeilingGate.Proofs.Yaml.Scan
import CeilingGate.Proofs.Yaml.Tokens
import CeilingGate.Proofs.Yaml.Compose
import CeilingGate.Proofs.Yaml.Walk
import CeilingGate.Proofs.Yaml.Merge
import CeilingGate.Proofs.Yaml.Scalar
import CeilingGate.Proofs.Yaml.Build
import CeilingGate.Proofs.Yaml.Read
import CeilingGate.Proofs.Policy.Answers
import CeilingGate.Proofs.Reload.Answers
import CeilingGate.Proofs.Admission.Agree
import CeilingGate.Proofs.Admission.Override
import CeilingGate.Proofs.Reload.Interval
import CeilingGate.Proofs.Policy.Refused
import CeilingGate.Proofs.Service.Atomic
import CeilingGate.Proofs.Service.HealthReport
import CeilingGate.Proofs.Policy.Labels
import CeilingGate.Proofs.Admission.Undeclared
import CeilingGate.Proofs.Admission.Independence
import CeilingGate.Proofs.Admission.Accounts
import CeilingGate.Proofs.CommandLine.Review
import CeilingGate.Proofs.Decimal.Order
import CeilingGate.Proofs.Admission.Strictness
import CeilingGate.Proofs.Policy.Rows
import CeilingGate.Proofs.Review.RoundTrip
import CeilingGate.Proofs.Reload.Session
import CeilingGate.Proofs.Reload.Delivery
import CeilingGate.Proofs.Workload.Tail
import CeilingGate.Proofs.Quantity.Reading
import CeilingGate.Proofs.Admission.Verdict
import CeilingGate.Proofs.CommandLine.Ending
import CeilingGate.Proofs.Quantity.TotalOrder
import CeilingGate.Proofs.Workload.Places
import CeilingGate.Proofs.Policy.Quoting
import CeilingGate.Proofs.Policy.Spellings
import CeilingGate.Proofs.Policy.View
import CeilingGate.Proofs.Yaml.Endless
import CeilingGate.Proofs.Duration.Parts
import CeilingGate.Proofs.Settings.Interval
