import CeilingGate.Path

/-! The files that are known, below the working directory or below the root. -/
namespace CeilingGate

/-- Files by their parts; a directory is there as long as it holds a file. -/
abbrev Files := List (List String × List UInt8)

inductive FileFault
  | missing
  | isDirectory
  | notDirectory
  | notText
deriving DecidableEq, Repr

def FileFault.message : FileFault → String
  | .missing => "no such file or directory"
  | .isDirectory => "is a directory"
  | .notDirectory => "not a directory"
  | .notText => "invalid UTF-8"

namespace Files

def write (files : Files) (p : Path) (bytes : List UInt8) : Files :=
  (p.resolved, bytes) :: files.filter fun f => f.1 != p.resolved

def delete (files : Files) (p : Path) : Files := files.filter fun f => f.1 != p.resolved

/-- The content of a file. The working directory and the root are always there. -/
def read (files : Files) (p : Path) : Except FileFault (List UInt8) :=
  let parts := p.resolved
  match files.lookup parts with
  | some bytes => .ok bytes
  | none =>
    if parts.isEmpty || parts == ["/"] || files.any fun f => parts.isPrefixOf f.1 then
      .error .isDirectory
    else if files.any fun f => f.1.isPrefixOf parts then .error .notDirectory
    else .error .missing

def isFile (files : Files) (p : Path) : Bool := (files.read p).toOption.isSome

/-- Line breaks of every form are read as line feeds. -/
def unifyBreaks : List Char → List Char
  | [] => []
  | '\r' :: '\n' :: rest => '\n' :: unifyBreaks rest
  | '\r' :: rest => '\n' :: unifyBreaks rest
  | c :: rest => c :: unifyBreaks rest

def readText (files : Files) (p : Path) : Except FileFault String :=
  match files.read p with
  | .error fault => .error fault
  | .ok bytes =>
    match Text.ofUtf8? bytes with
    | some s => .ok (String.ofList (unifyBreaks s.toList))
    | none => .error .notText

end Files

end CeilingGate
