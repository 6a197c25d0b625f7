import CeilingGate.Service.Health
import CeilingGate.Text.Digit

/-! The two services over HTTP: the admission endpoint, and health and metrics for operators. -/
namespace CeilingGate.Service

/-- A percent escape is a percent sign and two of these digits; it stands for one byte. -/
def hexValue? (c : Char) : Option Nat := if c.toNat < 128 then Text.digitIn? 16 c else none

def unescapePercents : List Char → List UInt8
  | '%' :: a :: b :: rest =>
    match hexValue? a, hexValue? b with
    | some x, some y => UInt8.ofNat (16 * x + y) :: unescapePercents rest
    | _, _ => Text.toUtf8 "%" ++ unescapePercents (a :: b :: rest)
  | c :: rest => Text.toUtf8 c.toString ++ unescapePercents rest
  | [] => []

/-- The text with its escapes replaced; escapes that do not form characters are left as they are. -/
def ofPercents (s : String) : String := (Text.ofUtf8? (unescapePercents s.toList)).getD s

/-- A request; its target is the path with an optional query. -/
structure HttpRequest where
  isOps : Bool
  method : String
  target : String
  body : List UInt8
deriving Repr

/-- The path of a target, which ends before a question mark or a number sign. -/
def HttpRequest.path (r : HttpRequest) : String :=
  let cs := r.target.toList.takeWhile fun c => c != '?' && c != '#'
  "/" ++ ofPercents (String.ofList (cs.dropWhile (· == '/')))

inductive Content
  | nothing
  | json (v : Value)
  | metrics
deriving Repr

structure HttpResponse where
  status : Nat
  content : Content
  counts : Metrics
  events : List Event

/-- Where a path leads. -/
inductive Route
  | review
  | health
  | metrics
deriving DecidableEq, Repr

/-- The names under which the counters are published. -/
def metricFamilies : List String := 
  ["admission_requests_total", "errors_total", "reload_errors_total", "reload_total"]

def route? (isOps : Bool) (path : String) : Option Route :=
  if isOps then
    if path == "/health" then some .health
    else if "/metrics/".toList.isPrefixOf path.toList then some .metrics
    else none
  else if path == "/" || path == "/validate" then some .review
  else none

/-- The path with a slash at its end taken away or added. -/
def toggleSlash (path : String) : String :=
  match path.toList.reverse with
  | '/' :: rest => String.ofList (rest.dropWhile (· == '/')).reverse
  | _ => path ++ "/"

/-- The method that a route answers to; metrics are sent whatever the method is. -/
def accepts (route : Route) (method : String) : Bool :=
  match route with
  | .review => method == "POST"
  | .health => method == "GET"
  | .metrics => true

def detail (message : String) : Content := .json (.record [("detail", .text message)])

def plain (status : Nat) (content : Content) : HttpResponse := ⟨status, content, .zero, []⟩

/-- Numbers that JSON has no form for are sent as nothing. -/
def finite : Binary64 → Value
  | .finite s m e => .float (.finite s m e)
  | _ => .null

mutual
def finiteValue : Value → Value
  | .float x => finite x
  | .list items => .list (finiteItems items)
  | .dict entries => .dict (finiteEntries entries)
  | v => v

def finiteItems : List Value → List Value
  | [] => []
  | v :: rest => finiteValue v :: finiteItems rest

def finiteEntries : List (Value × Value) → List (Value × Value)
  | [] => []
  | (k, v) :: rest => (k, finiteValue v) :: finiteEntries rest
end

def reviewResponse (engine : Engine) (body : List UInt8) : Except Abort HttpResponse :=
  let a := answer engine body
  match a.result with
  | .ok review => .ok ⟨200, .json (finiteValue review.toValue), a.counts, a.events⟩
  | .error (.fault refusal) => .ok ⟨refusal.status, detail refusal.message, a.counts, a.events⟩
  | .error (.abort abort) => .error abort

def healthResponse (engine : Engine) (store? : Option Policy.Store) : Except Abort HttpResponse := do
  let verdict := engine healthRequest
  let problem? ← problemOf verdict
  let h : Health := ⟨store?.map .ofStore, problem?⟩
  let events := verdict.events ++ (problem?.map unhealthyEvent).toList
  return ⟨if problem?.isNone then 200 else 500, .json h.toValue, verdict.counts, events⟩

/-- A path that leads somewhere once its last slash is changed is redirected there. -/
def unknownPath (r : HttpRequest) : HttpResponse :=
  if r.path != "/" && (route? r.isOps (toggleSlash r.path)).isSome then plain 307 .nothing
  else plain 404 (detail "Not Found")

def routed (engine : Engine) (store? : Option Policy.Store) (r : HttpRequest) :
    Except Abort HttpResponse :=
  match route? r.isOps r.path with
  | none => .ok (unknownPath r)
  | some route =>
    if !accepts route r.method then .ok (plain 405 (detail "Method Not Allowed"))
    else
      match route with
      | .review => reviewResponse engine r.body
      | .health => healthResponse engine store?
      | .metrics => .ok (plain 200 .metrics)

/-- Answers a request. A request for the head alone gets no content. -/
def serve (engine : Engine) (store? : Option Policy.Store) (r : HttpRequest) :
    Except Abort HttpResponse :=
  (routed engine store? r).map fun response =>
    if r.method == "HEAD" then { response with content := .nothing } else response

end CeilingGate.Service
