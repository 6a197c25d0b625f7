import CeilingGate.Proofs.Policy.Amounts
import CeilingGate.Proofs.Policy.Answers
import CeilingGate.Proofs.Policy.Labels
import CeilingGate.Proofs.Quantity.Plain

/-! Ceilings that are numerals: which of them are the same whether the numeral stands plain or quoted. A plain
one is read as a number first, and the text of that number is the ceiling. -/
namespace CeilingGate.Policy

open CeilingGate.Validation CeilingGate.Yaml

variable {t cs : List Char} {v : Value} {word : String} {x : Option RawText} {q q' : Quantity}
  {d : Dimension} {es es' : Entries} {b b' : Block} {c c' : Ceiling} {place place' : Place}
  {inherited inherited' : Dimension → Option Quantity} {s s' : Source} {source? source?' : Option RawText}
  {gen gen' : Generation} {n : ℚ}

/-- A numeral that is as much plain as it is quoted. Without a point it is not in base eight, or has no
digit but zeros up to the last; with one, the text of the nearest double spells the same number. -/
structure KeepsAmount (t : List Char) : Prop where
  octal : IsOctal t → ∀ c ∈ t.dropLast, c = '0'
  double : '.' ∈ t →
    ∃ x n, Binary64.parse? t = some x ∧ Numeral.Spells x.text.toList n ∧ Numeral.Spells t n

theorem isRow_of_isNumeral (h : IsNumeral t) (hp : '.' ∉ t) : IsRow t := by
  cases h with
  | whole h => exact h
  | point h hf => exact absurd (by simp) hp

theorem point_not_mem_of_octal (h : IsOctal t) : '.' ∉ t := by
  obtain ⟨c, rest, rfl, hrest⟩ := h
  intro hp
  rcases List.mem_cons.mp hp with hp | hp
  · cases hp
  · exact absurd (hrest '.' hp).1 (by decide)

theorem strip_of_spells (h : Numeral.Spells word.toList n) : (Text.strip word).isEmpty = false := by
  rw [Text.strip, Numeral.strip_of_clean h.clean, String.ofList_toList]
  simpa using h.ne_nil

theorem readLimitText_int {i : ℤ} (hx : Block.readLimitText (.int i) = .ok x) :
    ∃ word, x = some (.plain word) ∧ Integer.text? i = some word := by
  unfold Block.readLimitText at hx
  dsimp only at hx
  split at hx
  · next word hword =>
    cases hx
    exact ⟨word, rfl, hword⟩
  · cases hx

/-- The text of a number is never blank. -/
theorem strip_text (x : Binary64) : (Text.strip x.text).isEmpty = false := by
  cases x with
  | finite negative m e =>
    obtain ⟨y, hy⟩ := Binary64.exists_spells_text negative m e
    exact strip_of_spells hy
  | infinite negative =>
    have hall : ∀ negative, (Text.strip (Binary64.infinite negative).text).isEmpty = false := by
      decide +kernel
    exact hall negative
  | nan => decide +kernel

theorem spells_octal (h : Integer.text? (octal t : Int) = some word) :
    Numeral.Spells word.toList (octal t) := by
  rw [← Scalar.toString_of_text? h]
  change Numeral.Spells (toString (octal t)).toList (octal t)
  rw [Scalar.toList_toString_nat]
  simpa [Scalar.number_toDigits] using Numeral.spells_row (Binary64.isRow_toDigits (octal t))

/-- What is read in base eight is of the same amount exactly if it is zeros up to its last digit. -/
theorem eqv_octal_iff (ht : IsRow t) (ho : IsOctal t) (hs : Numeral.Spells word.toList (octal t))
    (hq : Quantity.ofText word = .ok q) (hq' : Quantity.ofText (String.ofList t) = .ok q') :
    q.eqv q' = true ↔ KeepsAmount t := by
  have hspells : Numeral.Spells (String.ofList t).toList (Scalar.number t) := by
    simpa using Numeral.spells_row ht
  rw [(Quantity.comparesAs_toRat q q').eqv, Quantity.toRat_of_spells hq hs,
    Quantity.toRat_of_spells hq' hspells, Nat.cast_inj, octal_eq_number_iff ht]
  exact ⟨fun h => ⟨fun _ => h, fun hp => (point_not_mem_of_octal ho hp).elim⟩, fun h => h.octal ho⟩

/-- What is read as a double is of the same amount exactly if the text of the double spells it. -/
theorem eqv_double_iff {x : Binary64} (hp : '.' ∈ t) (hx : Binary64.parse? t = some x)
    (hn : Numeral.Spells t n) (hq : Quantity.ofText x.text = .ok q)
    (hq' : Quantity.ofText (String.ofList t) = .ok q') : q.eqv q' = true ↔ KeepsAmount t := by
  have hspells : Numeral.Spells (String.ofList t).toList n := by simpa using hn
  have hspells' := Binary64.spells_of_ofText hq
  rw [(Quantity.comparesAs_toRat q q').eqv, Quantity.toRat_of_spells hq' hspells]
  constructor
  · intro heq
    rw [heq] at hspells'
    exact ⟨fun h => (point_not_mem_of_octal h hp).elim, fun _ => ⟨x, n, hx, hspells', hn⟩⟩
  · intro h
    obtain ⟨x', n', hx', hy, hn'⟩ := h.double hp
    obtain rfl := Option.some.inj (hx.symm.trans hx')
    rw [hspells'.unique hy, hn.unique hn']

/-- The text that a plain numeral is turned into, which is a ceiling of the same amount as the numeral itself
exactly if that is kept. -/
theorem text_of_reading (ht : IsNumeral t) (hv : NumeralReading t v)
    (hx : Block.readLimitText v = .ok x) :
    ∃ word, x = some (.plain word) ∧ (Text.strip word).isEmpty = false ∧
      ∀ q q', Quantity.ofText word = .ok q → Quantity.ofText (String.ofList t) = .ok q' →
        (q.eqv q' = true ↔ KeepsAmount t) := by
  obtain ⟨n, hn⟩ := Numeral.exists_spells_numeral ht
  have hspells : Numeral.Spells (String.ofList t).toList n := by rwa [String.toList_ofList]
  have hsame : '.' ∉ t → ¬ IsOctal t →
      ∀ q q', Quantity.ofText (String.ofList t) = .ok q →
        Quantity.ofText (String.ofList t) = .ok q' → (q.eqv q' = true ↔ KeepsAmount t) := by
    intro hp ho q q' hq hq'
    obtain rfl := Except.ok.inj (hq.symm.trans hq')
    exact iff_of_true (Decimal.eqv_iff.mpr rfl) ⟨fun h => (ho h).elim, fun h => (hp h).elim⟩
  cases hv with
  | text hp ho =>
    cases hx
    exact ⟨_, rfl, strip_of_spells hspells, hsame hp ho⟩
  | decimal hp ho hn' =>
    obtain ⟨word, rfl, hword⟩ := readLimitText_int hx
    obtain rfl := Option.some.inj (hn'.symm.trans hword)
    exact ⟨_, rfl, strip_of_spells hspells, hsame hp ho⟩
  | octal hp ho =>
    obtain ⟨word, rfl, hword⟩ := readLimitText_int hx
    have hoctal := spells_octal hword
    exact ⟨word, rfl, strip_of_spells hoctal,
      fun q q' hq hq' => eqv_octal_iff (isRow_of_isNumeral ht hp) ho hoctal hq hq'⟩
  | @float x hp hx' =>
    cases hx
    exact ⟨_, rfl, strip_text x, fun q q' hq hq' => eqv_double_iff hp hx' hn hq hq'⟩

/-! ## Blocks -/

theorem readDimension_of_ofEntries (h : Block.ofEntries es = .ok b) (d : Dimension) :
    Block.readDimension es d = .ok (b.texts.get d) := by
  obtain ⟨build, unlimited, hbuild, _, rfl⟩ := apply_eq_ok.mp h
  obtain ⟨texts, htexts, rfl⟩ := checked_map_eq_ok.mp hbuild
  obtain ⟨build₄, storage, h₄, hstorage, rfl⟩ := apply_eq_ok.mp htexts
  obtain ⟨build₃, memoryRequest, h₃, hmemoryRequest, rfl⟩ := apply_eq_ok.mp h₄
  obtain ⟨build₂, cpuRequest, h₂, hcpuRequest, rfl⟩ := apply_eq_ok.mp h₃
  obtain ⟨build₁, memoryLimit, h₁, hmemoryLimit, rfl⟩ := apply_eq_ok.mp h₂
  obtain ⟨cpuLimit, hcpuLimit, rfl⟩ := checked_map_eq_ok.mp h₁
  cases d <;> assumption

theorem readLimitText_of_ofEntries (h : Block.ofEntries es = .ok b)
    (hv : Value.find? es d.key = some v) : Block.readLimitText v = .ok (b.texts.get d) := by
  have hnamed : named? es [d.key, d.plainKey] = some (d.key, v) := named?_of_find? hv
  obtain ⟨hnone, _⟩ | ⟨n, v', hsome, hread⟩ := field_eq_ok (readDimension_of_ofEntries h d)
  · rw [hnamed] at hnone
    cases hnone
  · rw [hnamed] at hsome
    cases hsome
    exact hread

/-- A ceiling is what its text is read as, unless that is blank. -/
theorem limit?_of_text (h : b.ceiling place inherited = .ok c) (hx : b.texts.get d = some (.plain word))
    (hblank : (Text.strip word).isEmpty = false) :
    ∃ q, Quantity.ofText word = .ok q ∧ c.limit? d = some q := by
  have htext : b.text? d = some (.plain word) := by
    simp [Block.text?, hx, RawText.strip, RawText.isEmpty, hblank]
  have hread := ceiling_reads h d
  rw [htext] at hread
  obtain ⟨q, hq, hlimit⟩ := map_eq_ok.mp hread
  exact ⟨q, ofRaw_of_readLimit hq, hlimit.symm⟩

/-- Two ceilings have a limit each, and it is of the same amount exactly if the numeral keeps it. -/
def AgreeIfKept (t : List Char) (d : Dimension) (c c' : Ceiling) : Prop :=
  ∃ q q', c.limit? d = some q ∧ c'.limit? d = some q' ∧ (q.eqv q' = true ↔ KeepsAmount t)

theorem blocks_agree (ht : IsNumeral t) (hv : IsPlainValue t v) (hes : Value.find? es d.key = some v)
    (hes' : Value.find? es' d.key = some (.text (String.ofList t))) (hb : Block.ofEntries es = .ok b)
    (hb' : Block.ofEntries es' = .ok b') (hc : b.ceiling place inherited = .ok c)
    (hc' : b'.ceiling place' inherited' = .ok c') : AgreeIfKept t d c c' := by
  obtain ⟨word, hword, hblank, hiff⟩ :=
    text_of_reading ht (numeral_reading ht hv) (readLimitText_of_ofEntries hb hes)
  obtain ⟨n, hn⟩ := Numeral.exists_spells_numeral ht
  have hquoted : b'.texts.get d = some (.plain (String.ofList t)) :=
    (Except.ok.inj (readLimitText_of_ofEntries hb' hes')).symm
  have hblank' : (Text.strip (String.ofList t)).isEmpty = false :=
    strip_of_spells (n := n) (by simpa using hn)
  obtain ⟨q, hq, hlimit⟩ := limit?_of_text hc hword hblank
  obtain ⟨q', hq', hlimit'⟩ := limit?_of_text hc' hquoted hblank'
  exact ⟨q, q', hlimit, hlimit', hiff q q' hq hq'⟩

/-! ## Documents -/

/-- The top of a policy gives a key a scalar that is written so and has this tag. -/
def Source.Sets (s : Source) (key tag : String) (t : List Char) : Prop :=
  ∃ cs root g id, s.characters? = some cs ∧ graph cs = .ok (some (root, g)) ∧
    g.HasText root key id ∧ g.node id = .scalar tag t

/-- The top of a loaded policy has under a key what the scalar that it sets is read as. -/
theorem top_of_sets {key tag : String} {read : List Char → Except Failure Value}
    (hs : s.Sets key tag t) (hread : Scalar.reader? tag = some read)
    (hp : parse s source? = .ok gen) :
    ∃ es b v, Value.find? es key = some v ∧ read t = .ok v ∧ Block.ofEntries es = .ok b ∧
      b.ceiling .top topDefault = .ok gen.defaults := by
  obtain ⟨cs, root, g, id, hc, hg, htext, hnode⟩ := hs
  obtain ⟨v, doc, hvalue, hdoc, hgen⟩ := parse_eq_ok hp
  rw [value_of_characters? hc] at hvalue
  obtain ⟨es, w, rfl, hfind, hw⟩ := read_scalar hg hvalue htext ⟨tag, t, read, hnode, hread⟩
  exact ⟨es, doc.top, w, hfind, (readsAs_iff hnode hread).mp hw,
    (document_ofEntries (document_of_dict hdoc)).2.2, generation_defaults hgen⟩

theorem reader?_numeral (ht : IsNumeral t) : (Scalar.reader? (implicitTag t)).isSome := by
  cases ht with
  | point h hf =>
    rw [implicitTag_point h hf]
    rfl
  | whole h =>
    rw [implicitTag_label h.isLabel]
    repeat' split
    all_goals rfl

/-- Whether a ceiling is a numeral that stands plain or quoted makes no difference exactly if the numeral
keeps its amount: at the top of two policies that are loaded, and in any two blocks. -/
theorem quoted_limits_agree_iff (ht : IsNumeral t) (d : Dimension) :
    (∀ s s' source? source?' gen gen', Source.Sets s d.key (implicitTag t) t →
      Source.Sets s' d.key (standard "str") t → parse s source? = .ok gen →
        parse s' source?' = .ok gen' → AgreeIfKept t d gen.defaults gen'.defaults) ∧
    ∀ v es es' b b' place place' inherited inherited' c c', IsPlainValue t v →
      Value.find? es d.key = some v → Value.find? es' d.key = some (.text (String.ofList t)) →
        Block.ofEntries es = .ok b → Block.ofEntries es' = .ok b' →
          b.ceiling place inherited = .ok c → b'.ceiling place' inherited' = .ok c' →
            AgreeIfKept t d c c' := by
  constructor
  · intro s s' source? source?' gen gen' hs hs' hp hp'
    obtain ⟨read, hread⟩ := Option.isSome_iff_exists.mp (reader?_numeral ht)
    obtain ⟨es, b, v, hes, hv, hb, hc⟩ := top_of_sets hs hread hp
    obtain ⟨es', b', v', hes', hv', hb', hc'⟩ := top_of_sets hs' rfl hp'
    cases hv'
    exact blocks_agree ht ⟨read, hread, hv⟩ hes hes' hb hb' hc hc'
  · intro v es es' b b' place place' inherited inherited' c c' hv hes hes' hb hb' hc hc'
    exact blocks_agree ht hv hes hes' hb hb' hc hc'

/-- A policy with a ceiling for processors alone, as it is written. -/
def processorText (limit : String) : String := "maxCPULimit: " ++ limit

def processorGraph (tag : String) (t : List Char) : Graph :=
  #[.mapping (standard "map") [(1, 2)], .scalar (standard "str") "maxCPULimit".toList, .scalar tag t]

def processorGeneration (q : Quantity) : Generation :=
  ⟨⟨⟨some q, none, some .zero, some .zero, none⟩, false⟩, [], [], none⟩

theorem sets_processorGraph {text tag : String} {t : List Char}
    (hg : graph text.toList = .ok (some (0, processorGraph tag t))) :
    (Source.text text).Sets Dimension.cpuLimit.key tag t :=
  ⟨_, 0, _, 2, rfl, hg, ⟨[], 1, [], rfl, rfl, by simp⟩, rfl⟩

theorem quoted_limits_agree_iff_half :
    parse (.text (processorText "0.50")) none = .ok (processorGeneration ⟨"0.5", ⟨false, 5, -1⟩⟩) ∧
      parse (.text (processorText "\"0.50\"")) none =
        .ok (processorGeneration ⟨"0.50", ⟨false, 50, -2⟩⟩) ∧
      KeepsAmount "0.50".toList := by
  have hp : parse (.text (processorText "0.50")) none =
      .ok (processorGeneration ⟨"0.5", ⟨false, 5, -1⟩⟩) := by decide +kernel
  have hp' : parse (.text (processorText "\"0.50\"")) none =
      .ok (processorGeneration ⟨"0.50", ⟨false, 50, -2⟩⟩) := by decide +kernel
  have hs : (Source.text (processorText "0.50")).Sets Dimension.cpuLimit.key
      (implicitTag "0.50".toList) "0.50".toList := sets_processorGraph (by decide +kernel)
  have hs' : (Source.text (processorText "\"0.50\"")).Sets Dimension.cpuLimit.key
      (standard "str") "0.50".toList := sets_processorGraph (by decide +kernel)
  have hwhole : IsRow ['0'] := by decide
  have hfraction : IsRow ['5', '0'] := by decide
  have ht : IsNumeral "0.50".toList := (IsNumeral.point hwhole hfraction : IsNumeral ['0', '.', '5', '0'])
  obtain ⟨q, q', hq, hq', hiff⟩ :=
    (quoted_limits_agree_iff ht .cpuLimit).1 _ _ _ _ _ _ hs hs' hp hp'
  cases hq
  cases hq'
  exact ⟨hp, hp', hiff.mp (by decide +kernel)⟩

/-- A ceiling of `010` is 8 where it stands plain and 10 where it is quoted. -/
theorem quoted_limits_differ :
    ¬ ∀ (t : List Char) (d : Dimension) (s s' : Source) (gen gen' : Generation), IsNumeral t →
      s.Sets d.key (implicitTag t) t → s'.Sets d.key (standard "str") t →
        parse s none = .ok gen → parse s' none = .ok gen' →
          ∃ q q', gen.defaults.limit? d = some q ∧ gen'.defaults.limit? d = some q' ∧
            q.eqv q' = true := by
  intro h
  have hp : parse (.text (processorText "010")) none =
      .ok (processorGeneration ⟨"8", ⟨false, 8, 0⟩⟩) := by decide +kernel
  have hp' : parse (.text (processorText "\"010\"")) none =
      .ok (processorGeneration ⟨"010", ⟨false, 10, 0⟩⟩) := by decide +kernel
  have hs : (Source.text (processorText "010")).Sets Dimension.cpuLimit.key
      (implicitTag "010".toList) "010".toList := sets_processorGraph (by decide +kernel)
  have hs' : (Source.text (processorText "\"010\"")).Sets Dimension.cpuLimit.key
      (standard "str") "010".toList := sets_processorGraph (by decide +kernel)
  obtain ⟨q, q', hq, hq', heqv⟩ :=
    h _ .cpuLimit _ _ _ _ (.whole (by decide)) hs hs' hp hp'
  cases hq
  cases hq'
  exact absurd heqv (by decide)

end CeilingGate.Policy
