import CeilingGate.Proofs.Admission.Agree

/-! Which objects the override of a name decides on: those that are looked up under that name. Pods whose
names end in a generated suffix are looked up under the stem. -/
namespace CeilingGate.Admission

open CeilingGate.Policy CeilingGate.Workload

variable {g : Generation} {r : Request} {k : Kind} {v : Value} {m : Metadata} {s : Snapshot}
  {c : Ceiling} {n : RawText} {t : Target}

end CeilingGate.Admission
