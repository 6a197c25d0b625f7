import CeilingGate.Integer
import CeilingGate.Text.Raw

/-! Addresses to listen on: a host and a port behind the last colon. -/
namespace CeilingGate

open CeilingGate.Text

/-- An address as it was written, with its two parts. -/
structure Address where
  text : RawText
  host : RawText
  port : Nat
deriving DecidableEq, Repr

namespace Address

/-- Why a text is no address: there is no port, its digits are ornaments, or there are too many. -/
inductive Fault
  | noPort (text : RawText)
  | ornamentalPort (port : String)
  | longPort (digits : Nat)
deriving DecidableEq, Repr

def Fault.message : Fault → String
  | .noPort text => "invalid address " ++ text.quoted ++ ", expected host:port"
  | .ornamentalPort port =>
    "invalid literal for int() with base 10: " ++ String.ofList ((quotedChars port.toList).take 200)
  | .longPort digits => Integer.digitCountMessage digits

/-- The parts before and behind the last colon. -/
def splitLastColon? (cs : List Char) : Option (List Char × List Char) :=
  match cs.reverse.span (· != ':') with
  | (_, []) => none
  | (port, _ :: host) => some (host.reverse, port.reverse)

def anyHost : String := "0.0.0.0"

/-- A port is a row of digits; it may have any size. Without a host all of them are meant. -/
def ofText (t : RawText) : Except Fault Address :=
  match splitLastColon? t.shape with
  | none => .error (.noPort t)
  | some (host, port) =>
    if port.isEmpty || !port.all isDigit then .error (.noPort t)
    else if !port.all isDecimalDigit then .error (.ornamentalPort (String.ofList port))
    else if port.length > Integer.digitLimit then .error (.longPort port.length)
    else
      let host := if host.isEmpty then .plain anyHost else t.take host.length
      .ok ⟨t, host, ofDigits 10 (port.filterMap digitValue?)⟩

end Address

end CeilingGate
