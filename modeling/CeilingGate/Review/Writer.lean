import CeilingGate.Review.Basic

/-! The form in which reviews are sent. What is not set is left out; the object is sent as it came. -/
namespace CeilingGate

def Value.record (fields : List (String × Value)) : Value :=
  .dict (fields.map fun (name, v) => (.text name, v))

/-- A field that is present only if it has a value. -/
def optionalField {α : Type} (name : String) (write : α → Value) : Option α → List (String × Value)
  | some a => [(name, write a)]
  | none => []

def ObjectKind.toValue (k : ObjectKind) : Value :=
  .record [("group", k.group.toValue), ("version", k.version.toValue), ("kind", k.kind.toValue)]

def UserInfo.toValue (u : UserInfo) : Value :=
  .record [("username", u.username.toValue), ("uid", u.uid.toValue),
    ("groups", .list (u.groups.map RawText.toValue))]

/-- An object that is nothing is left out. -/
def objectField : Value → List (String × Value)
  | .null => []
  | v => [("object", v)]

def Request.toValue (r : Request) : Value :=
  .record
    ([("uid", r.uid.toValue), ("kind", r.kind.toValue), ("operation", r.operation.toValue),
        ("name", r.name.toValue), ("namespace", r.namespaceName.toValue)] ++
      objectField r.object ++ [("userInfo", r.userInfo.toValue)] ++
      optionalField "dryRun" Value.bool r.dryRun?)

def Status.toValue (s : Status) : Value :=
  .record (("message", s.message.toValue) :: optionalField "code" Value.int s.code?)

def Response.toValue (r : Response) : Value :=
  .record
    ([("uid", r.uid.toValue), ("allowed", .bool r.isAllowed)] ++
      optionalField "status" Status.toValue r.status?)

def Review.toValue (r : Review) : Value :=
  .record
    ([("apiVersion", r.apiVersion.toValue), ("kind", r.kind.toValue)] ++
      optionalField "request" Request.toValue r.request? ++
      optionalField "response" Response.toValue r.response?)

end CeilingGate
