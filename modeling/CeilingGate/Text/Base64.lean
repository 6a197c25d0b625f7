/-! Bytes written with 64 letters. Characters that are no letters are passed over, and the text ends
where padding completes a group of four. -/
namespace CeilingGate.Text.Base64

inductive Fault
  | loneLetter (letters : Nat)
  | padding
deriving DecidableEq, Repr

def Fault.message : Fault → String
  | .loneLetter letters =>
    "Invalid base64-encoded string: number of data characters (" ++ toString letters ++
      ") cannot be 1 more than a multiple of 4"
  | .padding => "Incorrect padding"

def letterValue? (c : Char) : Option Nat :=
  let n := c.toNat
  if 65 ≤ n && n ≤ 90 then some (n - 65)
  else if 97 ≤ n && n ≤ 122 then some (n - 71)
  else if 48 ≤ n && n ≤ 57 then some (n + 4)
  else if c == '+' then some 62
  else if c == '/' then some 63
  else none

/-- Reads on inside a group: `place` letters of it are read, `left` holds the bits not yet written,
`pads` counts padding since the last letter, and `done` holds the bytes so far, last first. -/
def read (place left pads : Nat) (done : List UInt8) : List Char → Except Fault (List UInt8)
  | [] =>
    if place == 0 then .ok done.reverse
    else if place == 1 then .error (.loneLetter (done.length / 3 * 4 + 1))
    else .error .padding
  | c :: rest =>
    if c == '=' then
      if place ≥ 2 then
        if place + pads + 1 ≥ 4 then .ok done.reverse else read place left (pads + 1) done rest
      else read place left pads done rest
    else
      match letterValue? c with
      | none => read place left pads done rest
      | some v =>
        match place with
        | 0 => read 1 v 0 done rest
        | 1 => read 2 (v % 16) 0 (UInt8.ofNat (left * 4 + v / 16) :: done) rest
        | 2 => read 3 (v % 4) 0 (UInt8.ofNat (left * 16 + v / 4) :: done) rest
        | _ => read 0 0 0 (UInt8.ofNat (left * 64 + v) :: done) rest

def decode (cs : List Char) : Except Fault (List UInt8) := read 0 0 0 [] cs

end CeilingGate.Text.Base64
