import CeilingGate.Value.Basic

/-! Admission reviews: a request to admit an object, and the response to it. -/
namespace CeilingGate

structure ObjectKind where
  group : RawText
  version : RawText
  kind : RawText
deriving Repr

structure UserInfo where
  username : RawText
  uid : RawText
  groups : List RawText
deriving Repr

structure Request where
  uid : RawText
  kind : ObjectKind
  operation : RawText
  name : RawText
  namespaceName : RawText
  object : Value
  userInfo : UserInfo
  dryRun? : Option Bool
deriving Repr

structure Status where
  message : RawText
  code? : Option Int
deriving Repr

structure Response where
  uid : RawText
  isAllowed : Bool
  status? : Option Status
deriving Repr

structure Review where
  apiVersion : RawText
  kind : RawText
  request? : Option Request
  response? : Option Response
deriving Repr

def ObjectKind.empty : ObjectKind := ⟨"", "", ""⟩

def UserInfo.empty : UserInfo := ⟨"", "", []⟩

end CeilingGate
