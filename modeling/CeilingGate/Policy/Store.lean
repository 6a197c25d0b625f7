import CeilingGate.Policy.Loader

/-! The store of the active policy. Publishing replaces the generation as a whole. -/
namespace CeilingGate.Policy

/-- The number counts the generations so far; it is zero before the first. -/
structure Store where
  current : Generation
  number : Nat
deriving DecidableEq, Repr

namespace Store

def empty : Store := ⟨.empty, 0⟩

def ofGeneration (g : Generation) : Store := ⟨g, 1⟩

/-- Makes a generation the active one, and gives back the one that was. -/
def publish (s : Store) (g : Generation) : Generation × Store :=
  (s.current, ⟨g, s.number + 1⟩)

def publishedEvent (s : Store) : Event :=
  ⟨.debug, "policy_generation_published",
    [("generation", .int s.number), ("source", .ofText? s.current.source?),
      ("namespaces", s.current.namespaceValues), ("names", s.current.nameValues)]⟩

def resolve (s : Store) (t : Target) : Ceiling := s.current.resolve t

def isExcluded (s : Store) (t : Target) : Bool := s.current.isExcluded t

end Store

end CeilingGate.Policy
