import CeilingGate.Policy.Loader
import CeilingGate.Proofs.Policy.Layers
import CeilingGate.Proofs.Quantity.Reading

/-! The limits of a policy that has been loaded are finite and not below zero, in its defaults and in each
of its overrides. -/
namespace CeilingGate

namespace Quantity

variable {q : Quantity} {s : String}

/-- The text of a quantity writes a number, not an infinity or an undefined result. -/
def IsFinite (q : Quantity) : Prop :=
  ∃ d, Numeral.parse? (splitSuffix q.text.toList).1 = some (.number d)

/-- A quantity that can be a limit. -/
structure IsAmount (q : Quantity) : Prop where
  isFinite : q.IsFinite
  nonneg : 0 ≤ q.value.toRat

theorem isFinite_of_ofText (h : ofText s = .ok q) : q.IsFinite := by
  obtain ⟨numeral, hparse, htext, hvalue⟩ := ofText_eq_ok h
  obtain ⟨d, rfl, _⟩ := valueOf_eq_ok hvalue
  exact ⟨d, htext ▸ hparse⟩

/-- A text with a half of a pair is no quantity. -/
theorem ofRaw_eq_ok {t : RawText} (h : ofRaw t = .ok q) : ∃ s, t = .plain s ∧ ofText s = .ok q := by
  cases t with
  | plain s => exact ⟨s, rfl, h⟩
  | broken b => cases h

theorem isAmount_zero : zero.IsAmount :=
  ⟨⟨.zero, by decide⟩, Decimal.isNegative_eq_false_iff.mp rfl⟩

end Quantity

namespace Policy

variable {b : Block} {c : Ceiling} {d : Document} {g : Generation} {t : Target} {dim : Dimension}
  {place : Place} {inherited : Dimension → Option Quantity} {s : Source} {source? : Option RawText}

def Ceiling.HasAmounts (c : Ceiling) : Prop := ∀ dim, ∀ q ∈ c.limit? dim, q.IsAmount

/-- The defaults and all overrides. -/
def Generation.ceilings (g : Generation) : List Ceiling :=
  g.defaults :: (g.namespaces.map (·.2) ++ g.names.map (·.2))

theorem isAmount_of_readLimit {text : RawText} {q : Quantity}
    (h : readLimit dim place text = .ok q) : q.IsAmount := by
  obtain ⟨s, rfl, hs⟩ := Quantity.ofRaw_eq_ok (ofRaw_of_readLimit h)
  refine ⟨Quantity.isFinite_of_ofText hs, ?_⟩
  unfold readLimit at h
  split at h
  · cases h
  · split at h
    · cases h
    · next hn =>
      cases h
      exact Decimal.isNegative_eq_false_iff.mp (by simpa [Quantity.isNegative] using hn)

theorem isAmount_topDefault : ∀ dim, ∀ q ∈ topDefault dim, q.IsAmount := by
  intro dim q hq
  cases dim with
  | cpuRequest | memoryRequest =>
    obtain rfl := Option.some.inj hq
    exact Quantity.isAmount_zero
  | _ => cases hq

/-- What a block writes is an amount, and so is the rest if what it inherits is. -/
theorem ceiling_hasAmounts (hi : ∀ dim, ∀ q ∈ inherited dim, q.IsAmount)
    (h : b.ceiling place inherited = .ok c) : c.HasAmounts := by
  intro dim q hq
  have hread := ceiling_reads h dim
  cases ht : b.text? dim with
  | none =>
    rw [ht] at hread
    exact hi dim q ((Except.ok.inj hread).trans hq)
  | some text =>
    rw [ht] at hread
    obtain ⟨q', hq', he⟩ := map_eq_ok.mp hread
    obtain rfl := Option.some.inj (he.trans hq)
    exact isAmount_of_readLimit hq'

theorem generation_hasAmounts (h : d.generation source? = .ok g) :
    ∀ c ∈ g.ceilings, c.HasAmounts := by
  obtain ⟨defaults, hd, h⟩ := bind_eq_ok.mp h
  obtain ⟨namespaces, hs, h⟩ := bind_eq_ok.mp h
  obtain ⟨names, hn, h⟩ := bind_eq_ok.mp h
  cases h
  have hdefaults : defaults.HasAmounts := ceiling_hasAmounts isAmount_topDefault hd
  have hnamespaces : ∀ e ∈ namespaces, e.2.HasAmounts := by
    refine forall_of_mapM hs fun (name, b) e he => ?_
    obtain ⟨c, hc, he⟩ := bind_eq_ok.mp he
    cases he
    exact ceiling_hasAmounts hdefaults hc
  have hnames : ∀ e ∈ names, e.2.HasAmounts := by
    refine forall_of_mapM hn fun (t, b) e he => ?_
    obtain ⟨c, hc, he⟩ := bind_eq_ok.mp he
    cases he
    exact ceiling_hasAmounts hdefaults hc
  simp only [Generation.ceilings, List.forall_mem_cons, List.forall_mem_append, List.forall_mem_map]
  exact ⟨hdefaults, hnamespaces, hnames⟩

/-- A policy that is parsed is built from a document that is read from the value of its text. -/
theorem parse_eq_ok (h : parse s source? = .ok g) :
    ∃ v d, s.value = .ok v ∧ readDocument v = .ok d ∧ d.generation source? = .ok g := by
  unfold parse at h
  split at h
  · cases h
  · cases h
  · next v hv =>
    obtain ⟨d, hread, hd⟩ := bind_eq_ok.mp h
    exact ⟨v, d, hv, hread, mapError_eq_ok.mp hd⟩

theorem generation_of_parse (h : parse s source? = .ok g) :
    ∃ d : Document, d.generation source? = .ok g := by
  obtain ⟨_, d, _, _, hd⟩ := parse_eq_ok h
  exact ⟨d, hd⟩

theorem mem_of_lookup {κ α : Type} [BEq κ] [LawfulBEq κ] {entries : List (κ × α)} {k : κ} {a : α}
    (h : entries.lookup k = some a) : a ∈ entries.map (·.2) := by
  obtain ⟨before, after, rfl, _⟩ := List.lookup_eq_some_iff.mp h
  simp

theorem entry_mem_ceilings (g : Generation) (t : Target) : g.entry t ∈ g.ceilings := by
  unfold Generation.entry Generation.ceilings
  cases hn : g.names.lookup t with
  | some c => simp [mem_of_lookup hn]
  | none =>
    cases hs : g.namespaces.lookup t.namespaceName with
    | some c => simp [mem_of_lookup hs]
    | none => simp

/-- What applies to a target has amounts only, whether or not it is unlimited. -/
theorem resolve_hasAmounts (h : ∀ c ∈ g.ceilings, c.HasAmounts) (t : Target) :
    (g.resolve t).HasAmounts := by
  unfold Generation.resolve
  dsimp only
  split
  · intro dim q hq
    cases dim <;> cases hq
  · exact h _ (entry_mem_ceilings g t)

end Policy

end CeilingGate
