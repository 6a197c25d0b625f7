import CeilingGate.Json.Reader
import CeilingGate.Review.Basic
import CeilingGate.Validation.Field

/-! Reading requests and reviews. Unknown fields are passed over. -/
namespace CeilingGate

open CeilingGate.Validation

def ObjectKind.read (v : Value) : Checked ObjectKind :=
  match readRecord "GroupVersionKind" v with
  | .ok entries =>
    ((Checked.map ObjectKind.mk (field entries ["group"] "" readText)).apply
      (field entries ["version"] "" readText)).apply
      (field entries ["kind"] "" readText)
  | .error e => .error e

def UserInfo.read (v : Value) : Checked UserInfo :=
  match readRecord "UserInfo" v with
  | .ok entries =>
    ((Checked.map UserInfo.mk (field entries ["username"] "" readText)).apply
      (field entries ["uid"] "" readText)).apply
      (field entries ["groups"] [] (readList readText))
  | .error e => .error e

def Request.read (v : Value) : Checked Request :=
  match readRecord "AdmissionRequest" v with
  | .ok entries =>
    (((((((Checked.map Request.mk (requiredField entries "uid" readText)).apply
      (field entries ["kind"] .empty ObjectKind.read)).apply
      (field entries ["operation"] "" readText)).apply
      (field entries ["name"] "" readText)).apply
      (field entries ["namespace"] "" readText)).apply
      (field entries ["object"] .null .ok)).apply
      (field entries ["userInfo", "user_info"] .empty UserInfo.read)).apply
      (field entries ["dryRun", "dry_run"] none (readOptional readBool))
  | .error e => .error e

def Status.read (v : Value) : Checked Status :=
  match readRecord "Status" v with
  | .ok entries =>
    (Checked.map Status.mk (field entries ["message"] "" readText)).apply
      (field entries ["code"] none (readOptional readInt))
  | .error e => .error e

def Response.read (v : Value) : Checked Response :=
  match readRecord "AdmissionResponse" v with
  | .ok entries =>
    ((Checked.map Response.mk (requiredField entries "uid" readText)).apply
      (requiredField entries "allowed" readBool)).apply
      (field entries ["status"] none (readOptional Status.read))
  | .error e => .error e

namespace Review

def read (v : Value) : Checked Review :=
  match readRecord "AdmissionReview" v with
  | .ok entries =>
    (((Checked.map Review.mk
      (field entries ["apiVersion", "api_version"] "admission.k8s.io/v1" readText)).apply
      (field entries ["kind"] "AdmissionReview" readText)).apply
      (field entries ["request"] none (readOptional Request.read))).apply
      (field entries ["response"] none (readOptional Response.read))
  | .error e => .error e

def notJson : Checked Review := .fail .notJson

/-- Reads a review from a JSON text. -/
def ofText (s : String) : Checked Review :=
  match Json.read Json.reviewDialect s.toList with
  | .ok v => read v
  | .error _ => notJson

def ofBytes (bytes : List UInt8) : Checked Review :=
  match Text.ofUtf8? bytes with
  | some s => ofText s
  | none => notJson

def rejection (issues : List Issue) : Rejection := ⟨"AdmissionReview", true, issues⟩

end Review

end CeilingGate
