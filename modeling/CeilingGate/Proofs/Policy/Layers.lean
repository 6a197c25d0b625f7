import CeilingGate.Policy.Generation
import CeilingGate.Proofs.Outcome

/-! What the ceiling of a target is made of: the block that applies to the target, and the top of the
document for what the block leaves open. -/
namespace CeilingGate.Policy

variable {b : Block} {c : Ceiling} {d d' : Document} {g g' : Generation} {t : Target}
  {dim : Dimension} {place : Place} {inherited : Dimension → Option Quantity}
  {source? source'? : Option RawText}

/-- The block that applies to a target. -/
def Document.block (d : Document) (t : Target) : Block :=
  match d.names.lookup t with
  | some b => b
  | none => (d.namespaces.lookup t.namespaceName).getD d.top

/-- The quantity that a block writes for a dimension. -/
def Block.written? (b : Block) (dim : Dimension) : Option Quantity :=
  (b.text? dim).bind fun s => (Quantity.ofRaw s).toOption

/-- Each text that a block writes for a dimension is that of a quantity. -/
def Block.IsReadable (b : Block) : Prop :=
  ∀ dim s, b.text? dim = some s → ∃ q, Quantity.ofRaw s = .ok q

theorem collect_eq_ok {ε α : Type} {f : Dimension → Except ε α} {x : Dimensioned α} :
    Dimensioned.collect f = .ok x ↔ ∀ dim, f dim = .ok (x.get dim) := by
  constructor
  · intro h
    simp only [Dimensioned.collect, bind_eq_ok] at h
    obtain ⟨_, h₁, _, h₂, _, h₃, _, h₄, _, h₅, h⟩ := h
    cases h
    intro dim
    cases dim <;> assumption
  · intro h
    simp only [Dimensioned.collect, bind_eq_ok]
    exact ⟨_, h .cpuLimit, _, h .memoryLimit, _, h .cpuRequest, _, h .memoryRequest, _, h .storage,
      rfl⟩

theorem ofRaw_of_readLimit {s : RawText} {q : Quantity} (h : readLimit dim place s = .ok q) :
    Quantity.ofRaw s = .ok q := by
  unfold readLimit at h
  split at h
  · cases h
  · split at h
    · cases h
    · cases h
      assumption

theorem ceiling_isUnlimited (h : b.ceiling place inherited = .ok c) :
    c.isUnlimited = b.isUnlimited := by
  obtain ⟨limits, _, h⟩ := bind_eq_ok.mp h
  cases h
  rfl

theorem ceiling_reads (h : b.ceiling place inherited = .ok c) (dim : Dimension) :
    (match b.text? dim with
      | some s => (readLimit dim place s).map some
      | none => .ok (inherited dim)) = .ok (c.limit? dim) := by
  obtain ⟨limits, hl, h⟩ := bind_eq_ok.mp h
  cases h
  exact collect_eq_ok.mp hl dim

theorem ceiling_readable (h : b.ceiling place inherited = .ok c) : b.IsReadable := by
  intro dim s hs
  have hl := ceiling_reads h dim
  rw [hs] at hl
  obtain ⟨q, hq, _⟩ := map_eq_ok.mp hl
  exact ⟨q, ofRaw_of_readLimit hq⟩

/-- A block's ceiling has what the block writes, and inherits the rest. -/
theorem ceiling_limit? (h : b.ceiling place inherited = .ok c) (dim : Dimension) :
    c.limit? dim = (b.written? dim <|> inherited dim) := by
  have hl := ceiling_reads h dim
  unfold Block.written?
  cases hs : b.text? dim with
  | none =>
    rw [hs] at hl
    simpa using (Except.ok.inj hl).symm
  | some s =>
    rw [hs] at hl
    obtain ⟨q, hq, he⟩ := map_eq_ok.mp hl
    simp [ofRaw_of_readLimit hq, Except.toOption, ← he]

theorem generation_defaults (h : d.generation source? = .ok g) :
    d.top.ceiling .top topDefault = .ok g.defaults := by
  obtain ⟨defaults, hd, h⟩ := bind_eq_ok.mp h
  obtain ⟨namespaces, _, h⟩ := bind_eq_ok.mp h
  obtain ⟨names, _, h⟩ := bind_eq_ok.mp h
  cases h
  exact hd

/-- The ceiling of a name is made from its block, which inherits from the defaults. -/
theorem generation_name (h : d.generation source? = .ok g) (hb : d.names.lookup t = some b) :
    ∃ c, b.ceiling (.ofName t) g.defaults.limit? = .ok c ∧ g.names.lookup t = some c := by
  obtain ⟨defaults, _, h⟩ := bind_eq_ok.mp h
  obtain ⟨namespaces, _, h⟩ := bind_eq_ok.mp h
  obtain ⟨names, hn, h⟩ := bind_eq_ok.mp h
  cases h
  have hname := lookup_of_mapM
    (f := fun (t : Target) (b : Block) => b.ceiling (.ofName t) defaults.limit?) hn t
  rw [hb] at hname
  exact hname

/-- The entry that applies to a target is made from the block that does, and overrides inherit from the
defaults alone. -/
theorem generation_entry (h : d.generation source? = .ok g) (t : Target) :
    (d.block t = d.top ∧ g.entry t = g.defaults) ∨
      ∃ place, (d.block t).ceiling place g.defaults.limit? = .ok (g.entry t) := by
  obtain ⟨defaults, hd, h⟩ := bind_eq_ok.mp h
  obtain ⟨namespaces, hs, h⟩ := bind_eq_ok.mp h
  obtain ⟨names, hn, h⟩ := bind_eq_ok.mp h
  cases h
  have hname := lookup_of_mapM
    (f := fun (t : Target) (b : Block) => b.ceiling (.ofName t) defaults.limit?) hn t
  have hspace := lookup_of_mapM
    (f := fun (s : RawText) (b : Block) => b.ceiling (.ofNamespace s) defaults.limit?) hs
    t.namespaceName
  simp only [Document.block, Generation.entry]
  cases hb : d.names.lookup t with
  | some b =>
    rw [hb] at hname
    obtain ⟨c, hc, hl⟩ := hname
    exact Or.inr ⟨_, by simpa [hl] using hc⟩
  | none =>
    rw [hb] at hname
    rw [hname]
    cases hb' : d.namespaces.lookup t.namespaceName with
    | some b =>
      rw [hb'] at hspace
      obtain ⟨c, hc, hl⟩ := hspace
      exact Or.inr ⟨_, by simpa [hl] using hc⟩
    | none =>
      rw [hb'] at hspace
      exact Or.inl ⟨rfl, by simp [hspace]⟩

theorem generation_readable (h : d.generation source? = .ok g) (t : Target) :
    (d.block t).IsReadable ∧ d.top.IsReadable := by
  have htop := ceiling_readable (generation_defaults h)
  obtain ⟨he, _⟩ | ⟨place, hc⟩ := generation_entry h t
  · rw [he]
    exact ⟨htop, htop⟩
  · exact ⟨ceiling_readable hc, htop⟩

theorem entry_isUnlimited (h : d.generation source? = .ok g) (t : Target) :
    (g.entry t).isUnlimited = (d.block t).isUnlimited := by
  obtain ⟨he, hg⟩ | ⟨place, hc⟩ := generation_entry h t
  · rw [he, hg]
    exact ceiling_isUnlimited (generation_defaults h)
  · exact ceiling_isUnlimited hc

theorem entry_limit? (h : d.generation source? = .ok g) (t : Target) (dim : Dimension) :
    (g.entry t).limit? dim =
      ((d.block t).written? dim <|> d.top.written? dim <|> topDefault dim) := by
  have htop := ceiling_limit? (generation_defaults h) dim
  obtain ⟨he, hg⟩ | ⟨place, hc⟩ := generation_entry h t
  · rw [he, hg, htop]
    cases d.top.written? dim <;> rfl
  · rw [ceiling_limit? hc dim, htop]

/-- Below all blocks the two requests have zero, and the rest has no ceiling. -/
theorem topDefault_eq (dim : Dimension) :
    topDefault dim =
      if dim = .cpuRequest ∨ dim = .memoryRequest then some .zero else none := by
  cases dim <;> rfl

theorem resolve_of_limited (h : (g.entry t).isUnlimited = false) : g.resolve t = g.entry t := by
  simp [Generation.resolve, h]

theorem resolve_of_unlimited (h : (g.entry t).isUnlimited = true) : g.resolve t = .unlimited := by
  simp [Generation.resolve, h]

theorem ceiling_ext {c c' : Ceiling} (hu : c.isUnlimited = c'.isUnlimited)
    (hl : ∀ dim, c.limit? dim = c'.limit? dim) : c = c' := by
  obtain ⟨⟨_, _, _, _, _⟩, u⟩ := c
  obtain ⟨⟨_, _, _, _, _⟩, u'⟩ := c'
  have h₁ := hl .cpuLimit
  have h₂ := hl .memoryLimit
  have h₃ := hl .cpuRequest
  have h₄ := hl .memoryRequest
  have h₅ := hl .storage
  simp_all [Ceiling.limit?, Dimensioned.get]

/-- What applies to a target depends on its own block and on the texts at the top, on nothing else. -/
theorem resolve_congr (h : d.generation source? = .ok g) (h' : d'.generation source'? = .ok g')
    (hb : d'.block t = d.block t) (ht : d'.top.texts = d.top.texts) :
    g'.resolve t = g.resolve t := by
  have hu : (g'.entry t).isUnlimited = (g.entry t).isUnlimited := by
    rw [entry_isUnlimited h, entry_isUnlimited h', hb]
  have hw : ∀ dim, d'.top.written? dim = d.top.written? dim := by
    intro dim
    simp [Block.written?, Block.text?, ht]
  have he : g'.entry t = g.entry t := by
    apply ceiling_ext hu
    intro dim
    rw [entry_limit? h, entry_limit? h', hb, hw]
  simp [Generation.resolve, he]

/-- The layers of a policy. A block that is unlimited leaves nothing of itself; any other has, in each
dimension, its own quantity, else that of the top, else zero for requests and no ceiling for the
rest. A target takes nothing from a block that is not its own, the texts of the top aside. -/
theorem resolve_layers (h : d.generation source? = .ok g) (t : Target) :
    ((d.block t).isUnlimited = true → g.resolve t = .unlimited) ∧
      ((d.block t).isUnlimited = false → (g.resolve t).isUnlimited = false ∧
        (d.block t).IsReadable ∧ d.top.IsReadable ∧
        ∀ dim, (g.resolve t).limit? dim =
          ((d.block t).written? dim <|> d.top.written? dim <|>
            if dim = .cpuRequest ∨ dim = .memoryRequest then some .zero else none)) ∧
      ∀ (d' : Document) (g' : Generation) (source'? : Option RawText),
        d'.generation source'? = .ok g' → d'.block t = d.block t →
          d'.top.texts = d.top.texts → g'.resolve t = g.resolve t := by
  have hu := entry_isUnlimited h t
  refine ⟨?_, ?_, ?_⟩
  · intro hb
    exact resolve_of_unlimited (hu.trans hb)
  · intro hb
    have hr := resolve_of_limited (hu.trans hb)
    rw [hr]
    refine ⟨hu.trans hb, (generation_readable h t).1, (generation_readable h t).2, fun dim => ?_⟩
    rw [← topDefault_eq, entry_limit? h t dim]
  · intro d' g' source'? h' hb ht
    exact resolve_congr h h' hb ht

def layeredDocument : Document where
  top := ⟨⟨some "2", some " ", none, none, some "50Gi"⟩, true⟩
  namespaces := [("team-a", ⟨⟨none, some "8Gi", none, none, none⟩, false⟩)]
  names := [(⟨"web", "team-a"⟩, ⟨⟨some "1", none, none, none, none⟩, false⟩)]

/-- The name takes the storage of the top, and no memory from its namespace. -/
theorem resolve_layeredDocument :
    ∃ g, layeredDocument.generation none = .ok g ∧
      (g.resolve ⟨"web", "team-a"⟩).isUnlimited = false ∧
      (g.resolve ⟨"web", "team-a"⟩).limit? .memoryLimit = none ∧
      (g.resolve ⟨"web", "team-a"⟩).limit? .storage =
        layeredDocument.top.written? .storage := by
  have h : ∃ g, layeredDocument.generation none = .ok g := ⟨_, rfl⟩
  obtain ⟨g, hg⟩ := h
  obtain ⟨hu, _, _, hl⟩ := (resolve_layers hg ⟨"web", "team-a"⟩).2.1 rfl
  refine ⟨g, hg, hu, ?_, ?_⟩
  · rw [hl]
    rfl
  · rw [hl]
    rfl

end CeilingGate.Policy
