import CeilingGate.Text.Basic

/-! Paths of files. Empty parts and single dots do not count; two dots stay, since what they stand for
is known to the file system only. -/
namespace CeilingGate

structure Path where
  root : String
  parts : List String
deriving DecidableEq, Repr

namespace Path

/-- A path begins at the root with one slash, and at a root of its own with exactly two. -/
def rootOf (cs : List Char) : String :=
  match cs with
  | '/' :: '/' :: '/' :: _ => "/"
  | '/' :: '/' :: _ => "//"
  | '/' :: _ => "/"
  | _ => ""

/-- The parts of a text between its slashes. -/
def splitSlashes : List Char → List (List Char)
  | [] => [[]]
  | '/' :: rest => [] :: splitSlashes rest
  | c :: rest =>
    match splitSlashes rest with
    | part :: parts => (c :: part) :: parts
    | [] => [[c]]

def ofText (s : String) : Path :=
  let parts := (splitSlashes s.toList).map String.ofList
  ⟨rootOf s.toList, parts.filter fun p => p != "" && p != "."⟩

def text (p : Path) : String :=
  if p.root.isEmpty && p.parts.isEmpty then "." else p.root ++ "/".intercalate p.parts

/-- The last part; the root and the working directory have none. -/
def name (p : Path) : String := p.parts.getLast?.getD ""

def parent (p : Path) : Path := { p with parts := p.parts.dropLast }

/-- The parts below the working directory, or below the root, with two dots leading back. -/
def resolved (p : Path) : List String :=
  (if p.root.isEmpty then [] else ["/"]) ++
    p.parts.foldl (fun done part => if part == ".." then done.dropLast else done ++ [part]) []

end Path

end CeilingGate
