import CeilingGate.Proofs.Policy.Sections

/-! When a document is refused: as soon as one of the limits that it writes is no quantity or is
negative, and then for the first such limit. A generation that is built has the entries of its
document, one for each key. -/
namespace CeilingGate.Policy

/-- A limit that a document writes. Blank texts write nothing. -/
structure WrittenLimit where
  place : Place
  dimension : Dimension
  text : RawText
deriving DecidableEq, Repr

variable {b : Block} {d : Document} {g : Generation} {w : WrittenLimit} {f : Fault} {v : Value}
  {place : Place} {inherited : Dimension → Option Quantity} {source? : Option RawText}

def WrittenLimit.fault? (w : WrittenLimit) : Option Fault :=
  failure? (readLimit w.dimension w.place w.text)

theorem generation_namespaces (h : d.generation source? = .ok g) :
    g.namespaces.map (·.1) = d.namespaces.map (·.1) := by
  obtain ⟨defaults, _, h⟩ := bind_eq_ok.mp h
  obtain ⟨namespaces, hs, h⟩ := bind_eq_ok.mp h
  obtain ⟨names, _, h⟩ := bind_eq_ok.mp h
  cases h
  exact keys_of_mapM (f := fun name b => b.ceiling (.ofNamespace name) defaults.limit?) hs

theorem generation_names (h : d.generation source? = .ok g) :
    g.names.map (·.1) = d.names.map (·.1) := by
  obtain ⟨defaults, _, h⟩ := bind_eq_ok.mp h
  obtain ⟨namespaces, _, h⟩ := bind_eq_ok.mp h
  obtain ⟨names, hn, h⟩ := bind_eq_ok.mp h
  cases h
  exact keys_of_mapM (f := fun t b => b.ceiling (.ofName t) defaults.limit?) hn

end CeilingGate.Policy
