import CeilingGate.Proofs.Policy.Amounts
import CeilingGate.Proofs.Policy.Labels
import CeilingGate.Proofs.Yaml.Spellings

/-! Name overrides whose keys are spelled in one way or another. Which way makes no difference, as long as no
target is spelled twice; of two overrides for one target the later one counts. -/
namespace CeilingGate.Policy

open CeilingGate.Validation CeilingGate.Yaml

variable {n ns : String} {k k' v : Value} {front back : List Char} {t : Target}
  {entries entries' kvs : Entries} {os before after : List (Target × Value)} {s s' : Source}
  {source? : Option RawText} {gen : Generation} {d : Document} {rest : String → Option Value}
  {named : List (Target × Block)}

/-! ## Keys -/

theorem splitSlash_append (h : '/' ∉ front) (back : List Char) :
    NameKey.splitSlash (front ++ '/' :: back) = (front, back) := by
  unfold NameKey.splitSlash
  rw [span_stop h]
  rfl

/-- A text with a slash spells the target of its two halves. -/
theorem ofSlashed_append (h : '/' ∉ ns.toList) (n : String) :
    NameKey.ofSlashed? (.plain (ns ++ "/" ++ n)) = some ⟨n, ns⟩ := by
  have hlist : (ns ++ "/" ++ n).toList = ns.toList ++ '/' :: n.toList := by simp
  unfold NameKey.ofSlashed?
  dsimp only
  rw [hlist, splitSlash_append h]
  simp

theorem partText_text {key : String} (h : Value.find? entries key = some (.text n)) :
    NameKey.partText entries key = .ok n := by
  unfold NameKey.partText
  rw [h]
  by_cases hn : n = ""
  · subst hn
    rfl
  · simp [Value.isTruthy, Value.text?, hn]

/-- Each spelling is read as the name and the namespace that it spells. -/
theorem read_of_isSpelling (h : IsSpelling n ns k) : NameKey.read k = .ok ⟨n, ns⟩ := by
  cases h with
  | text hslash =>
    unfold NameKey.read
    dsimp only
    rw [ofSlashed_append hslash]
  | pair => exact read_nameKey.mpr ⟨partText_text rfl, partText_text rfl⟩

/-- No two spellings are the same key. -/
theorem sameKey_isSpelling (h : IsSpelling n ns k') : Value.sameKey k k' = true ↔ k = k' := by
  cases h with
  | text => exact Value.sameKey_text_iff
  | pair =>
    constructor
    · intro hs
      simpa [nameKey, Value.sameKey_tuple_iff, Value.sameKeys_cons_iff, Value.sameKeys_nil_iff,
        Value.sameKey_text_iff] using hs
    · rintro rfl
      exact nameKey_self (Value.sameKey_text_iff.mpr rfl) (Value.sameKey_text_iff.mpr rfl)

/-! ## Sections -/

/-- A key spells the name and the namespace of a target. -/
def IsSpellingOf (t : Target) (k : Value) : Prop := ∃ n ns, t = ⟨.plain n, .plain ns⟩ ∧ IsSpelling n ns k

theorem IsSpellingOf.read (h : IsSpellingOf t k) : NameKey.read k = .ok t := by
  obtain ⟨n, ns, rfl, hspell⟩ := h
  exact read_of_isSpelling hspell

theorem IsSpellingOf.sameKey (h : IsSpellingOf t k') : Value.sameKey k k' = true ↔ k = k' := by
  obtain ⟨n, ns, -, hspell⟩ := h
  exact sameKey_isSpelling hspell

/-- The keys of a section spell these targets, one after the other, and have these contents. -/
def AreSpelled (entries : Entries) (os : List (Target × Value)) : Prop :=
  List.Forall₂ (fun e o => IsSpellingOf o.1 e.1 ∧ e.2 = o.2) entries os

theorem AreSpelled.read (h : AreSpelled kvs os) : ∀ e ∈ kvs, ∃ t, NameKey.read e.1 = .ok t ∧
    IsSpellingOf t e.1 ∧ t ∈ os.map (·.1) := by
  induction h with
  | nil => simp
  | @cons e o _ _ he _ ih =>
    refine List.forall_mem_cons.mpr ⟨⟨o.1, he.1.read, he.1, by simp⟩, ?_⟩
    intro e' he'
    obtain ⟨t, hread, hspell, hmem⟩ := ih e' he'
    exact ⟨t, hread, hspell, List.mem_cons_of_mem _ hmem⟩

/-- Keys that spell different targets are different. -/
theorem AreSpelled.pairwise (h : AreSpelled kvs os) (hnodup : (os.map (·.1)).Nodup) :
    kvs.Pairwise fun e e' => Value.sameKey e.1 e'.1 = false := by
  induction h with
  | nil => exact .nil
  | @cons e o kvs os he hrest ih =>
    obtain ⟨hnew, hnodup⟩ := List.nodup_cons.mp hnodup
    refine .cons (fun e' he' => ?_) (ih hnodup)
    obtain ⟨t, hread, hspell, hmem⟩ := AreSpelled.read hrest e' he'
    by_contra hsame
    have hkey : e.1 = e'.1 := hspell.sameKey.mp (by simpa using hsame)
    rw [← hkey, he.1.read] at hread
    cases hread
    exact hnew hmem

theorem AreSpelled.nameKeys (h : AreSpelled kvs os) :
    Document.nameKeys kvs = .ok (Keyed.ofList os) := by
  refine bind_eq_ok.mpr ⟨os, mapM_eq_ok.mpr (h.imp ?_), rfl⟩
  rintro ⟨key, content⟩ ⟨t, v⟩ ⟨hkey, rfl⟩
  exact bind_eq_ok.mpr ⟨t, hkey.read, rfl⟩

/-- The blocks of a section whose keys spell different targets are those of the targets. -/
theorem AreSpelled.readNames (h : AreSpelled kvs os) (hnodup : (os.map (·.1)).Nodup) :
    Document.readNames (.dict (Value.ofEntries kvs)) =
      .ok (Document.readNameBlocks (Keyed.ofList os)) := by
  unfold Document.readNames
  rw [Value.ofEntries_of_pairwise (h.pairwise hnodup)]
  dsimp only
  rw [h.nameKeys]

theorem AreSpelled.namesField (h : AreSpelled kvs os) (hnodup : (os.map (·.1)).Nodup)
    (hs : Value.find? entries "customNames" = some (.dict (Value.ofEntries kvs))) :
    Document.namesField entries =
      .ok ((Document.readNameBlocks (Keyed.ofList os)).under (.key "customNames")) := by
  have hnamed : named? entries ["customNames", "names"] = _ := named?_of_find? hs
  unfold Document.namesField
  rw [hnamed]
  dsimp only
  rw [h.readNames hnodup]
  rfl

/-- Whether a key is read as a target. -/
def spellsTarget (t : Target) (k : Value) : Bool := (NameKey.read k).toOption == some t

theorem AreSpelled.filter (h : AreSpelled kvs os) (t : Target) :
    AreSpelled (kvs.filter fun e => spellsTarget t e.1) (os.filter fun o => o.1 == t) := by
  induction h with
  | nil => exact .nil
  | @cons e o _ _ he _ ih =>
    have hsame : spellsTarget t e.1 = (o.1 == t) := by
      simp [spellsTarget, he.1.read, Except.toOption]
    rw [List.filter_cons, List.filter_cons, hsame]
    split
    · exact .cons he ih
    · exact ih

/-- The last override for a target is the last of the section for it, with one in front of it at most. -/
theorem AreSpelled.getLast? (h : AreSpelled kvs (before ++ (t, v) :: after))
    (hbefore : (before.countP fun o => o.1 == t) ≤ 1) (hafter : ∀ o ∈ after, o.1 ≠ t) :
    ((Value.ofEntries kvs).filter fun e => spellsTarget t e.1).getLast?.map (·.2) = some v := by
  have hnone : after.filter (fun o => o.1 == t) = [] :=
    List.filter_eq_nil_iff.mpr fun o ho => by simpa using hafter o ho
  have hfilter := h.filter t
  rw [List.filter_append, List.filter_cons_of_pos (by simp), hnone] at hfilter
  obtain ⟨front, ⟨k, c⟩, back, hkvs, ⟨_, hc⟩, hback⟩ := split_of_forall₂ hfilter.flip
  obtain rfl := List.forall₂_nil_left_iff.mp hback
  have hfront : front.length ≤ 1 := by
    have hlength := hfilter.length_eq
    rw [hkvs] at hlength
    rw [List.countP_eq_length_filter] at hbefore
    simp only [List.length_append, List.length_cons, List.length_nil] at hlength
    omega
  have hsame : ∀ e ∈ kvs, ∀ e' ∈ kvs, Value.sameKey e.1 e'.1 = true →
      spellsTarget t e.1 = spellsTarget t e'.1 := by
    intro e _ e' he' hs
    obtain ⟨_, _, hspell, _⟩ := h.read e' he'
    rw [hspell.sameKey.mp hs]
  rw [Value.filter_ofEntries hsame, hkvs, Value.getLast?_ofEntries hfront]
  exact congrArg some hc

/-! ## Blocks -/

/-- What a target has is the last content of the section for it. -/
theorem lookup_ofList_of_read {parts : List (Target × Value)}
    (h : List.Forall₂ (fun e p => NameKey.read e.1 = .ok p.1 ∧ e.2 = p.2) entries parts) (t : Target) :
    (Keyed.ofList parts).lookup t =
      (entries.filter fun e => spellsTarget t e.1).getLast?.map (·.2) := by
  rw [Keyed.lookup_ofList, ← List.head?_reverse, ← List.filter_reverse, List.head?_filter]
  have hrows := List.forall₂_reverse_iff.mpr h
  clear h
  generalize entries.reverse = es, parts.reverse = ps at hrows
  induction hrows with
  | nil => rfl
  | @cons e p _ _ he _ ih =>
    obtain ⟨t', w⟩ := p
    obtain ⟨hread, hcontent⟩ := he
    by_cases ht : t' = t
    · subst ht
      simp [spellsTarget, hread, hcontent, Except.toOption]
    · have hne : (t == t') = false := by simpa using Ne.symm ht
      simpa [List.lookup_cons, hne, spellsTarget, hread, ht, Except.toOption] using ih

theorem lookup_readNameBlocks {parts : List (Target × Value)}
    (h : Document.readNameBlocks parts = .ok named) (hv : parts.lookup t = some v) :
    ∃ b, Block.read v = .ok b ∧ named.lookup t = some b := by
  rw [Document.readNameBlocks, all_eq_ok, List.forall₂_map_left_iff] at h
  have hentries : List.Forall₂ (fun (p : Target × Value) (e : Target × Block) =>
      e.1 = p.1 ∧ Block.read p.2 = .ok e.2) parts named := by
    refine h.imp ?_
    rintro ⟨t', w⟩ e he
    obtain ⟨b, hb, rfl⟩ := checked_map_eq_ok.mp (under_eq_ok.mp he)
    exact ⟨rfl, hb⟩
  have hfound := lookup_of_forall₂ (R := fun _ w b => Block.read w = .ok b) hentries t
  rw [hv] at hfound
  exact hfound

/-- The block of a target is read from the last content of the section for it. -/
theorem lookup_readNames (h : Document.readNames (.dict entries) = .ok (.ok named))
    (hlast : (entries.filter fun e => spellsTarget t e.1).getLast?.map (·.2) = some v) :
    ∃ b, Block.read v = .ok b ∧ named.lookup t = some b := by
  obtain ⟨parts, hparts, hblocks⟩ := readNames_dict_eq_ok h
  exact lookup_readNameBlocks hblocks ((lookup_ofList_of_read hparts t).trans hlast)

/-! ## Documents -/

theorem named?_congr {names : List String}
    (h : ∀ n ∈ names, Value.find? entries n = Value.find? entries' n) :
    named? entries names = named? entries' names := by
  unfold named?
  induction names with
  | nil => rfl
  | cons n names ih =>
    rw [List.findSome?_cons, List.findSome?_cons, h n (by simp),
      ih fun n hn => h n (by simp [hn])]

theorem field_congr {α : Type} {names : List String} (absent : α) (read : Value → Checked α)
    (h : ∀ n ∈ names, Value.find? entries n = Value.find? entries' n) :
    field entries names absent read = field entries' names absent read := by
  unfold field
  rw [named?_congr h]

/-- A document is made from what stands under each key, whatever the order. -/
theorem ofEntries_congr (h : ∀ key, key ≠ "customNames" → Value.find? entries key = Value.find? entries' key)
    (hnames : Document.namesField entries = Document.namesField entries') :
    Document.ofEntries entries = Document.ofEntries entries' := by
  have hlimit : ∀ dim, Block.readDimension entries dim = Block.readDimension entries' dim := by
    intro dim
    refine field_congr _ _ fun n hn => h n ?_
    rintro rfl
    cases dim <;> exact absurd hn (by decide)
  have hunlimited : field entries ["unlimited"] false readBool =
      field entries' ["unlimited"] false readBool :=
    field_congr _ _ fun n hn => h n (by rintro rfl; exact absurd hn (by decide))
  have hnamespaces : field entries ["customNamespaces", "namespaces"] [] Document.readNamespaces =
      field entries' ["customNamespaces", "namespaces"] [] Document.readNamespaces :=
    field_congr _ _ fun n hn => h n (by rintro rfl; exact absurd hn (by decide))
  have htop : Block.ofEntries entries = Block.ofEntries entries' := by
    unfold Block.ofEntries
    simp only [hlimit, hunlimited]
  unfold Document.ofEntries
  simp only [hnames, htop, hnamespaces]

theorem parse_of_value (h : s.value = .ok v) (source? : Option RawText) :
    parse s source? = generationOf v source? := by
  unfold parse
  rw [h]

/-! ## Policies -/

/-- A node spells the name and the namespace of a target. -/
def SpellsTarget (g : Graph) (id : NodeId) (t : Target) : Prop :=
  ∃ n ns, t = ⟨.plain n, .plain ns⟩ ∧ g.Spells id n ns

/-- The text of a policy has a section of names whose keys spell these targets, in the order of the text.
Their contents are read as these values, and the rest of the top is as given. -/
def Source.Overrides (s : Source) (rest : String → Option Value) (os : List (Target × Value)) : Prop :=
  ∃ cs root g b sid top, s.characters? = some cs ∧ graph cs = .ok (some (root, g)) ∧
    Builder.ofGraph g root = .ok b ∧ b.value viewDepth root = .dict top ∧
    (∀ key, key ≠ "customNames" → Value.find? top key = rest key) ∧
    g.HasSection root "customNames" sid ∧
    List.Forall₂ (fun e o => SpellsTarget g e.1 o.1 ∧ b.value 2 e.2 = o.2)
      (g.entries sid) os

theorem not_isMerge_of_spells {g : Graph} {es : List (NodeId × NodeId)}
    {R : NodeId × NodeId → Target × Value → Prop}
    (h : List.Forall₂ (fun e o => SpellsTarget g e.1 o.1 ∧ R e o) es os) :
    ∀ e ∈ es, g.isMerge e = false := by
  induction h with
  | nil => simp
  | cons he _ ih =>
    obtain ⟨⟨n, ns, -, hspells⟩, -⟩ := he
    exact List.forall_mem_cons.mpr ⟨hspells.isMerge, ih⟩

theorem areSpelled_of_keys {g : Graph} {b : Builder} {es : List (NodeId × NodeId)}
    {keys : List (Value × NodeId)}
    (hkeys : List.Forall₂ (fun e kv => IsKeyOf g e.1 kv.1 ∧ kv.2 = e.2 ∧ b.IsBuilt kv.2) es keys)
    (hs : List.Forall₂ (fun e o => SpellsTarget g e.1 o.1 ∧ b.value 2 e.2 = o.2) es os) :
    AreSpelled (keys.map fun kv => (kv.1, b.value 2 kv.2)) os := by
  induction hkeys generalizing os with
  | nil =>
    cases hs
    exact .nil
  | @cons e kv _ _ hkey _ ih =>
    obtain ⟨o, os, ⟨⟨n, ns, ht, hspells⟩, hvalue⟩, hrest, rfl⟩ := List.forall₂_cons_left_iff.mp hs
    exact .cons ⟨⟨n, ns, ht, isSpelling_of_isKeyOf hkey.1 hspells⟩, by simpa [hkey.2.1] using hvalue⟩
      (ih hrest)

/-- What the value of such a policy is. -/
theorem value_of_overrides (h : s.Overrides rest os) :
    ∃ top kvs, s.value = .ok (.dict top) ∧
      (∀ key, key ≠ "customNames" → Value.find? top key = rest key) ∧
      Value.find? top "customNames" = some (.dict (Value.ofEntries kvs)) ∧ AreSpelled kvs os := by
  obtain ⟨cs, root, g, b, sid, top, hc, hg, hb, htop, hrest, hs, hspelled⟩ := h
  obtain ⟨hf, hw, hbuilt⟩ := Builder.faithful_of_ofGraph hb
  have hvalue : s.value = .ok (.dict top) := by
    rw [value_of_characters? hc, Yaml.read, hg, ← htop]
    simp only [bind, Except.bind, hb]
    rfl
  obtain ⟨hsection, hfind⟩ := hf.find?_value hw hbuilt hs.hasText
  obtain ⟨top', htop', hfind⟩ := hfind 3
  obtain rfl : top' = top := by simpa using htop'.symm.trans htop
  obtain ⟨kids, ⟨g', keys, hsteady, hkeys, rfl⟩, hdict⟩ := hf.value_dict hw hsection hs.tag
  rw [hsteady.plain sid (not_isMerge_of_spells hspelled)] at hkeys
  refine ⟨top', _, hvalue, hrest, ?_, areSpelled_of_keys hkeys hspelled⟩
  rw [hfind, hdict 2, Value.ofEntries_map]

/-- Two policies with the same overrides for different targets, however these are spelled, come to the
same. -/
theorem parse_of_overrides (h : s.Overrides rest os) (h' : s'.Overrides rest os)
    (hnodup : (os.map (·.1)).Nodup) (source? : Option RawText) : parse s source? = parse s' source? := by
  obtain ⟨top, kvs, hvalue, hrest, hfind, hkvs⟩ := value_of_overrides h
  obtain ⟨top', kvs', hvalue', hrest', hfind', hkvs'⟩ := value_of_overrides h'
  have hnames : Document.namesField top = Document.namesField top' := by
    rw [hkvs.namesField hnodup hfind, hkvs'.namesField hnodup hfind']
  have hsame : Document.ofEntries top = Document.ofEntries top' :=
    ofEntries_congr (fun key hne => (hrest key hne).trans (hrest' key hne).symm) hnames
  have hread : readDocument (.dict top) = readDocument (.dict top') := by
    unfold readDocument readDocument.readEntries
    dsimp only
    rw [hsame]
  rw [parse_of_value hvalue, parse_of_value hvalue', generationOf, generationOf, hread]

/-- The last override for a target gives the ceiling, with one in front of it at most. -/
theorem ceiling_of_overrides (h : s.Overrides rest (before ++ (t, v) :: after))
    (hbefore : (before.countP fun o => o.1 == t) ≤ 1) (hafter : ∀ o ∈ after, o.1 ≠ t)
    (hp : parse s source? = .ok gen) :
    ∃ b c, Block.read v = .ok b ∧ b.ceiling (.ofName t) gen.defaults.limit? = .ok c ∧
      gen.names.lookup t = some c := by
  obtain ⟨top, kvs, hvalue, _, hfind, hkvs⟩ := value_of_overrides h
  obtain ⟨doc, d, hdoc, hd, hgen⟩ := parse_eq_ok hp
  obtain rfl : doc = .dict top := by simpa using hdoc.symm.trans hvalue
  obtain ⟨b, hb, hlookup⟩ :=
    lookup_readNames (readNames_of_find? hd hfind) (hkvs.getLast? hbefore hafter)
  obtain ⟨c, hc, hfound⟩ := generation_name hgen hlookup
  exact ⟨b, c, hb, hc, hfound⟩

/-- A target that a key spells is found in the generation. -/
theorem mem_of_spells {cs : List Char} {g : Graph} {root sid kid cid : NodeId}
    (hc : s.characters? = some cs) (hg : graph cs = .ok (some (root, g)))
    (hs : g.HasSection root "customNames" sid) (he : (kid, cid) ∈ g.entries sid)
    (hk : g.Spells kid n ns) (hp : parse s source? = .ok gen) :
    ⟨n, ns⟩ ∈ gen.names.map (·.1) := by
  obtain ⟨section', ⟨top, hvalue, hfind⟩, _, hown⟩ := section_of_parse hc hp hg hs
  obtain ⟨d, hd, _, hnames⟩ := document_of_parse hvalue hp
  have hmem : (kid, cid) ∈ g.own sid := List.mem_filter.mpr ⟨he, by simp [hk.isMerge]⟩
  obtain ⟨e, he, k, hkey, hsame⟩ := hown kid cid hmem
  have hspelling := isSpelling_of_isKeyOf hkey hk
  have hread : NameKey.read e.1 = .ok ⟨n, ns⟩ := by
    rw [hsame.elim id (sameKey_isSpelling hspelling).mp]
    exact read_of_isSpelling hspelling
  rw [hnames, mem_names hd hfind]
  exact ⟨e, he, hread⟩

/-- A key that spells a target can be made, whatever has been built before, and is read as the target. -/
theorem keyValue_of_spells {g : Graph} {unfilled : NodeId → Prop} {b : Builder} {id : NodeId}
    (h : Builder.IsReady g unfilled b) (hs : g.Spells id n ns) (deep : Bool) (frames : Nat) :
    ∃ b' k, Builder.keyValue (frames + 3) (fun b id => Builder.mapping true (frames + 3) b id)
        (fun b id => Builder.build deep (frames + 3) b id) b id = .ok (b', k) ∧
      k.isHashable = true ∧ NameKey.read k = .ok ⟨n, ns⟩ := by
  obtain ⟨b', k, hkey, hhash⟩ := h.keyValue hs deep frames
  have hbuilds := Builder.buildsFaithfully g (frames + 3)
  obtain ⟨_, hkeyOf⟩ := gives_iff.mp (Builder.keyValue_faithful hbuilds h.faithful id) _ hkey
  exact ⟨b', k, hkey, hhash, read_of_isSpelling (isSpelling_of_isKeyOf (hkeyOf hhash) hs)⟩

/-- All spellings of a name override are the same override. A key node that spells a target can always be
made into a key that is read as the target, and once the policy is loaded the target is there. Two policies
with the same overrides for different targets come to the same, however each of these is spelled. The
ceiling of a target is that of its override; of two, spelled alike or not, that of the later one. -/
theorem spellings_agree :
    (∀ g unfilled b id n ns deep frames, Builder.IsReady g unfilled b → g.Spells id n ns →
      ∃ b' k, Builder.keyValue (frames + 3) (fun b id => Builder.mapping true (frames + 3) b id)
          (fun b id => Builder.build deep (frames + 3) b id) b id = .ok (b', k) ∧
        k.isHashable = true ∧ NameKey.read k = .ok ⟨n, ns⟩) ∧
    (∀ (s : Source) cs g root sid kid cid n ns source? gen, s.characters? = some cs →
      graph cs = .ok (some (root, g)) → g.HasSection root "customNames" sid →
        (kid, cid) ∈ g.entries sid → g.Spells kid n ns → parse s source? = .ok gen →
          ⟨n, ns⟩ ∈ gen.names.map (·.1)) ∧
    (∀ (s s' : Source) rest os source?, s.Overrides rest os → s'.Overrides rest os →
      (os.map (·.1)).Nodup → parse s source? = parse s' source?) ∧
    ∀ (s : Source) rest before after t v source? gen, s.Overrides rest (before ++ (t, v) :: after) →
      (before.countP fun o => o.1 == t) ≤ 1 → (∀ o ∈ after, o.1 ≠ t) → parse s source? = .ok gen →
        ∃ b c, Block.read v = .ok b ∧ b.ceiling (.ofName t) gen.defaults.limit? = .ok c ∧
          gen.names.lookup t = some c := by
  refine ⟨?_, ?_, ?_, ?_⟩
  · intro g unfilled b id n ns deep frames h hs
    exact keyValue_of_spells h hs deep frames
  · intro s cs g root sid kid cid n ns source? gen hc hg hs he hk hp
    exact mem_of_spells hc hg hs he hk hp
  · intro s s' rest os source? h h' hnodup
    exact parse_of_overrides h h' hnodup source?
  · intro s rest before after t v source? gen h hbefore hafter hp
    exact ceiling_of_overrides h hbefore hafter hp

/-- Of three overrides for one target the one in between counts, if it alone is spelled in another way. -/
example : (Document.nameKeys (Value.ofEntries [(.text "shop/web", .int 1),
    (nameKey (.text "web") (.text "shop"), .int 2), (.text "shop/web", .int 3)])).map
      (·.map fun o => o.2.text?) = .ok [some "2"] := by decide +kernel

/-- A policy with overrides alone, as they are written. -/
def overrideText (overrides : String) : String := "customNames: \x7b" ++ overrides ++ "\x7d"

def slashGraph : Graph :=
  #[.mapping (standard "map") [(1, 2)], .scalar (standard "str") "customNames".toList,
    .mapping (standard "map") [(3, 4)], .scalar (standard "str") "shop/web".toList,
    .mapping (standard "map") []]

def mappingGraph : Graph :=
  #[.mapping (standard "map") [(1, 2)], .scalar (standard "str") "customNames".toList,
    .mapping (standard "map") [(3, 8)], .mapping (standard "map") [(4, 5), (6, 7)],
    .scalar (standard "str") "namespace".toList, .scalar (standard "str") "shop".toList,
    .scalar (standard "str") "name".toList, .scalar (standard "str") "web".toList,
    .mapping (standard "map") []]

def twiceGraph : Graph :=
  #[.mapping (standard "map") [(1, 2)], .scalar (standard "str") "customNames".toList,
    .mapping (standard "map") [(3, 4), (5, 10)], .scalar (standard "str") "shop/web".toList,
    .mapping (standard "map") [], .mapping (standard "map") [(6, 7), (8, 9)],
    .scalar (standard "str") "name".toList, .scalar (standard "str") "web".toList,
    .scalar (standard "str") "namespace".toList, .scalar (standard "str") "shop".toList,
    .mapping (standard "map") [(11, 12)], .scalar (standard "str") "unlimited".toList,
    .scalar (standard "bool") "true".toList]

def isOverrides : Value → Bool
  | .dict [(.text s, _)] => s == "customNames"
  | _ => false

def isOpen : Value → Bool
  | .dict [] => true
  | _ => false

/-- Whether a graph is that of a policy with overrides alone, with an open block at this node. -/
def isLone (g : Graph) (cid : NodeId) : Bool :=
  match Builder.ofGraph g 0 with
  | .ok b => isOverrides (b.value viewDepth 0) && isOpen (b.value 2 cid)
  | .error _ => false

theorem value_of_hasSection {g : Graph} {b : Builder} {root sid : NodeId}
    (hb : Builder.ofGraph g root = .ok b) (hs : g.HasSection root "customNames" sid) :
    ∃ top, b.value viewDepth root = .dict top := by
  obtain ⟨hf, hw, hbuilt⟩ := Builder.faithful_of_ofGraph hb
  obtain ⟨top, htop, _⟩ := (hf.find?_value hw hbuilt hs.hasText).2 3
  exact ⟨top, htop⟩

theorem hasSection_overrides {g : Graph} {es : List (NodeId × NodeId)}
    (hroot : g.node 0 = .mapping (standard "map") [(1, 2)])
    (hkey : g.node 1 = .scalar (standard "str") "customNames".toList)
    (hsection : g.node 2 = .mapping (standard "map") es) : g.HasSection 0 "customNames" 2 :=
  ⟨[], 1, [], hroot, hkey, by simp, by rw [hsection]; rfl⟩

theorem overrides_of_isLone (g : Graph) (cid : NodeId) {text : String} (h : isLone g cid = true)
    (hg : graph text.toList = .ok (some (0, g))) (hs : g.HasSection 0 "customNames" 2)
    (hes : g.entries 2 = [(3, cid)]) (hk : g.Spells 3 n ns) :
    (Source.text text).Overrides (fun _ => none) [(⟨n, ns⟩, .dict [])] := by
  unfold isLone at h
  split at h
  · next b hb =>
    obtain ⟨hlone, hopen⟩ := Bool.and_eq_true_iff.mp h
    unfold isOverrides at hlone
    unfold isOpen at hopen
    split at hlone
    · next s v hvalue =>
      obtain rfl := eq_of_beq hlone
      split at hopen
      · next hblock =>
        refine ⟨_, 0, g, b, 2, _, rfl, hg, hb, hvalue, fun key hne => ?_, hs, ?_⟩
        · have hother : ¬ Value.sameKey (.text "customNames") (.text key) = true := by
            simpa [Value.sameKey_text_iff] using hne.symm
          simp [Value.find?, hother]
        · rw [hes]
          exact .cons ⟨⟨n, ns, rfl, hk⟩, hblock⟩ .nil
      · cases hopen
    · cases hlone
  · cases h

theorem spells_slashGraph : slashGraph.Spells 3 "web" "shop" := .text rfl (by decide)

theorem spells_mappingGraph : mappingGraph.Spells 3 "web" "shop" := by
  have hid : mappingGraph.node 3 = .mapping (standard "map") [(4, 5), (6, 7)] := rfl
  exact .mapping hid (.inr rfl) rfl rfl rfl rfl

theorem hasSection_twiceGraph : twiceGraph.HasSection 0 "customNames" 2 :=
  hasSection_overrides rfl rfl rfl

def slashText : String := overrideText "shop/web: \x7b\x7d"

def mappingText : String := overrideText "\x7bnamespace: shop, name: web\x7d: \x7b\x7d"

/-- Two overrides for one target, the later one unlimited. -/
def twiceText : String :=
  overrideText "shop/web: \x7b\x7d, \x7bname: web, namespace: shop\x7d: \x7bunlimited: true\x7d"

theorem graph_twiceText : graph twiceText.toList = .ok (some (0, twiceGraph)) := by decide +kernel

theorem overrides_twiceText : ∃ rest v₁ v₂, (Source.text twiceText).Overrides rest
    ([(⟨"web", "shop"⟩, v₁)] ++ (⟨"web", "shop"⟩, v₂) :: []) := by
  have hok : (Builder.ofGraph twiceGraph 0).toOption.isSome = true := by decide +kernel
  have hfirst : twiceGraph.Spells 3 "web" "shop" := .text rfl (by decide)
  have hid : twiceGraph.node 5 = .mapping (standard "map") [(6, 7), (8, 9)] := rfl
  have hsecond : twiceGraph.Spells 5 "web" "shop" := .mapping hid (.inl rfl) rfl rfl rfl rfl
  cases hb : Builder.ofGraph twiceGraph 0 with
  | error f =>
    rw [hb] at hok
    cases hok
  | ok b =>
    obtain ⟨top, htop⟩ := value_of_hasSection hb hasSection_twiceGraph
    exact ⟨Value.find? top, b.value 2 4, b.value 2 10, _, 0, twiceGraph, b, 2, top, rfl, graph_twiceText,
      hb, htop, fun _ _ => rfl, hasSection_twiceGraph, .cons ⟨⟨_, _, rfl, hfirst⟩, rfl⟩ (.cons ⟨⟨_, _, rfl, hsecond⟩, rfl⟩ .nil)⟩

def webGeneration (c : Ceiling) : Generation := ⟨openCeiling, [(⟨"web", "shop"⟩, c)], [], none⟩

theorem spellings_agree_web :
    (∃ b' k, Builder.keyValue 3 (fun b id => Builder.mapping true 3 b id)
        (fun b id => Builder.build false 3 b id) (Builder.fresh slashGraph) 3 = .ok (b', k) ∧
      k.isHashable = true ∧ NameKey.read k = .ok ⟨"web", "shop"⟩) ∧
    ⟨"web", "shop"⟩ ∈ (webGeneration ⟨openCeiling.limits, true⟩).names.map (·.1) ∧
    parse (.text slashText) none = parse (.text mappingText) none ∧
    parse (.text mappingText) none = .ok (webGeneration openCeiling) ∧
    ∃ v b c, Block.read v = .ok b ∧ b.ceiling (.ofName ⟨"web", "shop"⟩) openCeiling.limit? = .ok c ∧
      (webGeneration ⟨openCeiling.limits, true⟩).names.lookup ⟨"web", "shop"⟩ = some c := by
  obtain ⟨hmade, hloaded, hagree, hlater⟩ := spellings_agree
  have hparse : parse (.text twiceText) none = .ok (webGeneration ⟨openCeiling.limits, true⟩) := by
    decide +kernel
  have hslash : (Source.text slashText).Overrides (fun _ => none) [(⟨"web", "shop"⟩, .dict [])] :=
    overrides_of_isLone slashGraph 4 (by decide +kernel) (by decide +kernel)
      (hasSection_overrides rfl rfl rfl) rfl spells_slashGraph
  have hmapping : (Source.text mappingText).Overrides (fun _ => none) [(⟨"web", "shop"⟩, .dict [])] :=
    overrides_of_isLone mappingGraph 8 (by decide +kernel) (by decide +kernel)
      (hasSection_overrides rfl rfl rfl) rfl spells_mappingGraph
  obtain ⟨rest, v₁, v₂, htwice⟩ := overrides_twiceText
  refine ⟨?_, ?_, ?_, by decide +kernel, v₂, ?_⟩
  · exact hmade slashGraph _ _ 3 "web" "shop" false 0
      ⟨Builder.fresh_faithful slashGraph, by simp [Builder.fresh]⟩ spells_slashGraph
  · exact hloaded (.text twiceText) _ twiceGraph 0 2 3 4 "web" "shop" none _ rfl graph_twiceText
      hasSection_twiceGraph (by decide) (.text rfl (by decide)) hparse
  · exact hagree _ _ _ _ none hslash hmapping (by simp)
  · exact hlater _ rest _ [] _ v₂ none _ htwice (by simp) (by simp) hparse

end CeilingGate.Policy
