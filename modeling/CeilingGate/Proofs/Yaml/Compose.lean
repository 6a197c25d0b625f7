import CeilingGate.Proofs.Yaml.Ends
import CeilingGate.Yaml.Node.OfTokens

/-! What stops the composition of nodes for good: what has cut the tokens short, or collections that
are open inside each other. -/
namespace CeilingGate.Yaml

/-- How many collections a token opens; one that closes a collection counts against it. -/
def Token.opening : Token → Int
  | .blockSequenceStart | .blockMappingStart | .flowSequenceStart | .flowMappingStart => 1
  | .blockEnd | .flowSequenceEnd | .flowMappingEnd => -1
  | _ => 0

/-- How many collections are open behind a row of tokens. -/
def openings : List Token → Int
  | [] => 0
  | t :: ts => t.opening + openings ts

namespace Composer

/-- Somewhere so many collections are open that the nodes inside them may be too deep: a list without
indentation and a pair in a list have no opening of their own, so one that is open may count twice. -/
def NestsTooDeep (ts : List Token) : Prop :=
  ∃ before, before <+: ts ∧ (depthLimit : Int) < 2 * openings before

/-- How the composition of nodes from tokens can stop for good. -/
def Stops (ts : List Token) (fault : Failure) (a : Abort) : Prop :=
  fault = .abort a ∨ (a = .tooDeep ∧ NestsTooDeep ts)

/-- A composer has passed tokens, behind which `n` collections are open. -/
def At (ts : List Token) (fault : Failure) (n : Int) (s : Composer) : Prop :=
  s.fault = fault ∧ ∃ before, ts = before ++ s.tokens ∧ openings before = n

variable {α β : Type} {ts : List Token} {fault : Failure} {n m : Int} {s : Composer} {t : Token}
  {es : List Token}

/-- Composing leads from `n` open collections to `m`. -/
def Composes (ts : List Token) (fault : Failure) (n m : Int) (f : Compose α) : Prop :=
  ∀ s, At ts fault n s → Ends (Stops ts fault) (fun r => At ts fault m r.2) (f s)

theorem openings_append (as bs : List Token) : openings (as ++ bs) = openings as + openings bs := by
  induction as with
  | nil => simp [openings]
  | cons t rest ih => simp [openings, ih, Int.add_assoc]

theorem At.tokens (h : At ts fault n s) {rest : List Token} (hs : s.tokens = t :: rest) :
    At ts fault (n + t.opening) { s with tokens := rest } := by
  obtain ⟨hf, before, hts, hn⟩ := h
  refine ⟨hf, before ++ [t], by simp [hts, hs], ?_⟩
  rw [openings_append, hn]
  simp [openings]

theorem At.next (h : At ts fault n s) {rest : List Token} (hs : s.tokens = t :: rest) :
    At ts fault (n + t.opening) s.next := by
  have := h.tokens hs
  simpa [Composer.next, hs] using this

theorem At.leaf (h : At ts fault n s) (anchor? : Option String) (node : Node) :
    At ts fault n (s.leaf anchor? node).2 := by
  cases anchor? <;> exact h

theorem tokens_of_ahead (h : s.ahead es = true) : ∃ t rest, s.tokens = t :: rest ∧ t ∈ es := by
  unfold ahead peek? at h
  cases hs : s.tokens with
  | nil => simp [hs] at h
  | cons t rest =>
    refine ⟨t, rest, rfl, ?_⟩
    simpa [hs] using h

/-- Passing a token of a kind that opens or closes `m` collections. -/
theorem At.pass (h : At ts fault n s) (ha : s.ahead es = true) (he : ∀ t ∈ es, t.opening = m) :
    At ts fault (n + m) s.next := by
  obtain ⟨t, rest, hs, ht⟩ := tokens_of_ahead ha
  rw [← he t ht]
  exact h.next hs

theorem At.skip (h : At ts fault n s) (ha : s.ahead es = true) (he : ∀ t ∈ es, t.opening = 0) :
    At ts fault n s.next := by
  have hnext := h.pass ha he
  rwa [Int.add_zero] at hnext

theorem ends_fault {Q : α → Prop} : Ends (Stops ts fault) Q (.error fault) := by
  cases hf : fault with
  | abort a => exact Or.inl rfl
  | _ => trivial

theorem ends_broken {Q : α → Prop} (h : At ts fault n s) :
    Ends (Stops ts fault) Q (.error s.broken) := by
  unfold broken
  split
  · rw [h.1]
    exact ends_fault
  · trivial

theorem sequence_composes {anchor? : Option String} {tag : String} {items : Compose (List NodeId)}
    (h : Composes ts fault n m items) : Composes ts fault n m (sequence anchor? tag items) := by
  intro s hs
  exact (h _ (hs.leaf anchor? _)).bind fun _ hr => hr

theorem mapping_composes {anchor? : Option String} {tag : String}
    {entries : Compose (List (NodeId × NodeId))} (h : Composes ts fault n m entries) :
    Composes ts fault n m (mapping anchor? tag entries) := by
  intro s hs
  exact (h _ (hs.leaf anchor? _)).bind fun _ hr => hr

theorem orEmpty_composes {node : Compose NodeId} (h : Composes ts fault n n node) :
    Composes ts fault n n (orEmpty es node) := by
  intro s hs
  unfold orEmpty
  split
  · exact hs
  · exact h s hs

theorem contentNode_composes {node : Compose NodeId} (h : Composes ts fault n n node) :
    Composes ts fault n n (contentNode es node) := by
  intro s hs
  unfold contentNode
  split
  · next ha =>
    have hnext := hs.skip ha (by simp [Token.opening])
    exact orEmpty_composes h _ hnext
  · exact hs

theorem pair_composes {keyEnds contentEnds : List Token} {node : Compose NodeId}
    (h : Composes ts fault n n node) : Composes ts fault n n (pair keyEnds contentEnds node) := by
  intro s hs
  refine (orEmpty_composes h s hs).bind ?_
  intro key hkey
  exact (contentNode_composes h key.2 hkey).bind fun _ hr => hr

theorem properties_at (h : At ts fault n s) : At ts fault n s.properties.2 := by
  unfold properties
  split
  · next hs =>
    have := (h.tokens hs).tokens rfl
    simpa [Token.opening] using this
  · next hs => simpa [Token.opening] using h.tokens hs
  · next hs =>
    have := (h.tokens hs).tokens rfl
    simpa [Token.opening] using this
  · next hs => simpa [Token.opening] using h.tokens hs
  · exact h

theorem fullTag?_ends {P : Abort → Prop} (s : Composer) (p : Properties) :
    Ends P (fun _ => True) (s.fullTag? p) := by
  unfold fullTag?
  split
  · trivial
  · trivial
  · split <;> trivial

theorem newProperties_composes : Composes ts fault n n newProperties := by
  intro s hs
  have hprops := properties_at hs
  unfold newProperties
  generalize s.properties = props at hprops ⊢
  obtain ⟨p, s'⟩ := props
  have hfault : ∀ {Q : (Properties × Option String) × Composer → Prop},
      Ends (Stops ts fault) Q (.error s'.fault) := hprops.1 ▸ ends_fault
  dsimp only
  split
  · exact hfault
  · refine (fullTag?_ends s' p).bind ?_
    intro full? _
    split
    · exact hfault
    · split
      · trivial
      · exact hprops

/-- What composing does with the calls that it may make, at the depths and openings that belong
together. -/
structure Keeps (ts : List Token) (fault : Failure) (fuel : Nat) : Prop where
  node : ∀ (block indentless : Bool) (depth : Nat) (n : Int),
    depth + (if indentless then 1 else 0) ≤ 2 * n →
      Composes ts fault n n (node block indentless fuel depth)
  blockItems : ∀ (indentless : Bool) (depth : Nat) (n : Int), depth + 1 ≤ 2 * n →
    Composes ts fault n (if indentless then n else n - 1) (blockItems indentless fuel depth)
  blockEntries : ∀ (depth : Nat) (n : Int), depth + 2 ≤ 2 * n →
    Composes ts fault n (n - 1) (blockEntries fuel depth)
  flowItems : ∀ (first : Bool) (depth : Nat) (n : Int), depth + 2 ≤ 2 * n →
    Composes ts fault n (n - 1) (flowItems first fuel depth)
  flowEntries : ∀ (first : Bool) (depth : Nat) (n : Int), depth + 2 ≤ 2 * n →
    Composes ts fault n (n - 1) (flowEntries first fuel depth)

variable {fuel depth : Nat} {block indentless first : Bool}

theorem keeps_zero : Keeps ts fault 0 where
  node := fun _ _ _ _ _ _ _ => ends_malformed
  blockItems := fun _ _ _ _ _ _ => ends_malformed
  blockEntries := fun _ _ _ _ _ => ends_malformed
  flowItems := fun _ _ _ _ _ _ => ends_malformed
  flowEntries := fun _ _ _ _ _ _ => ends_malformed

theorem blockItems_composes (h : Keeps ts fault fuel) (hd : depth + 1 ≤ 2 * n) :
    Composes ts fault n (if indentless then n else n - 1)
      (Composer.blockItems indentless (fuel + 1) depth) := by
  intro s hs
  have hrest := h.blockItems indentless depth n hd
  generalize hm : (if indentless then n else n - 1) = m at hrest ⊢
  rw [Composer.blockItems]
  by_cases ha : s.ahead [.blockEntry] = true
  · rw [if_pos ha]
    have hnext := hs.skip ha (by simp [Token.opening])
    have hnode := h.node true false (depth + 1) n (by simpa using hd)
    refine (orEmpty_composes hnode _ hnext).bind ?_
    intro item hitem
    exact (hrest item.2 hitem).bind fun _ hr => hr
  · rw [if_neg ha]
    split
    · next hi =>
      rw [if_pos hi] at hm
      exact hm ▸ hs
    · next hi =>
      rw [if_neg hi] at hm
      split
      · next ha => exact hm ▸ hs.pass ha (by simp [Token.opening])
      · exact ends_broken hs

theorem blockEntries_composes (h : Keeps ts fault fuel) (hd : depth + 2 ≤ 2 * n) :
    Composes ts fault n (n - 1) (Composer.blockEntries (fuel + 1) depth) := by
  intro s hs
  rw [Composer.blockEntries]
  split
  · next ha =>
    have hnext := hs.skip ha (by simp [Token.opening])
    have hnode := h.node true true (depth + 1) n (by simpa using by omega)
    refine (pair_composes hnode _ hnext).bind ?_
    intro entry hentry
    exact (h.blockEntries depth n hd entry.2 hentry).bind fun _ hr => hr
  · split
    · next ha => exact hs.pass ha (by simp [Token.opening])
    · exact ends_broken hs

/-- A comma stands before all parts but the first. -/
theorem At.comma (hs : At ts fault n s) (h : ¬ (!first && !s.ahead [.flowEntry]) = true) :
    At ts fault n (if first then s else s.next) := by
  cases first with
  | true => exact hs
  | false =>
    have ha : s.ahead [.flowEntry] = true := by simpa using h
    exact hs.skip ha (by simp [Token.opening])

theorem flowItems_composes (h : Keeps ts fault fuel) (hd : depth + 2 ≤ 2 * n) :
    Composes ts fault n (n - 1) (Composer.flowItems first (fuel + 1) depth) := by
  intro s hs
  rw [Composer.flowItems]
  split
  · next ha => exact hs.pass ha (by simp [Token.opening])
  · split
    · exact ends_broken hs
    · next hc =>
      have hcomma := hs.comma hc
      generalize (if first then s else s.next) = s' at hcomma ⊢
      dsimp only
      split
      · next ha =>
        have hnext := hcomma.skip ha (by simp [Token.opening])
        have hnode := h.node false false (depth + 2) n (by simpa using hd)
        refine (mapping_composes (m := n) ?_ _ hnext).bind ?_
        · intro s hs
          exact (pair_composes hnode s hs).bind fun _ hr => hr
        · intro item hitem
          exact (h.flowItems false depth n hd item.2 hitem).bind fun _ hr => hr
      · split
        · next ha => exact hcomma.pass ha (by simp [Token.opening])
        · have hnode := h.node false false (depth + 1) n (by simpa using by omega)
          refine (hnode _ hcomma).bind ?_
          intro item hitem
          exact (h.flowItems false depth n hd item.2 hitem).bind fun _ hr => hr

theorem flowEntries_composes (h : Keeps ts fault fuel) (hd : depth + 2 ≤ 2 * n) :
    Composes ts fault n (n - 1) (Composer.flowEntries first (fuel + 1) depth) := by
  intro s hs
  rw [Composer.flowEntries]
  have hnode := h.node false false (depth + 1) n (by simpa using by omega)
  split
  · next ha => exact hs.pass ha (by simp [Token.opening])
  · split
    · exact ends_broken hs
    · next hc =>
      have hcomma := hs.comma hc
      generalize (if first then s else s.next) = s' at hcomma ⊢
      dsimp only
      split
      · next ha =>
        have hnext := hcomma.skip ha (by simp [Token.opening])
        refine (pair_composes hnode _ hnext).bind ?_
        intro entry hentry
        exact (h.flowEntries false depth n hd entry.2 hentry).bind fun _ hr => hr
      · split
        · next ha => exact hcomma.pass ha (by simp [Token.opening])
        · refine (hnode _ hcomma).bind ?_
          intro key hkey
          exact (h.flowEntries false depth n hd key.2.addEmpty.2 hkey).bind fun _ hr => hr

/-- A collection behind the token that opens it. -/
theorem At.enter {f : Compose NodeId} {rest : List Token} (hs : At ts fault n s)
    (ht : s.tokens = t :: rest) (ho : t.opening = 1)
    (h : Composes ts fault (n + 1) (n + 1 - 1) f) :
    Ends (Stops ts fault) (fun r => At ts fault n r.2) (f s.next) := by
  have hnext := hs.next ht
  rw [ho] at hnext
  rw [Int.add_sub_cancel] at h
  exact h _ hnext

theorem node_composes (h : Keeps ts fault fuel)
    (hd : depth + (if indentless then 1 else 0) ≤ 2 * n) :
    Composes ts fault n n (Composer.node block indentless (fuel + 1) depth) := by
  intro s hs
  have hdepth : depth ≤ 2 * n := by
    cases indentless <;> simp at hd <;> omega
  have hitem : depth + 1 ≤ 2 * (n + 1) := by omega
  have hentry : depth + 2 ≤ 2 * (n + 1) := by omega
  rw [Composer.node]
  split
  · next hdeep =>
    obtain ⟨_, before, hts, hn⟩ := hs
    refine Or.inr ⟨rfl, before, ⟨s.tokens, hts.symm⟩, ?_⟩
    rw [hn]
    omega
  · split
    · next ht =>
      split
      · simpa [Token.opening] using hs.tokens ht
      · trivial
    · refine (newProperties_composes s hs).bind ?_
      rintro ⟨⟨p, full?⟩, s'⟩ hs'
      dsimp only at hs' ⊢
      split
      · next ht => simpa [Token.opening] using (hs'.next ht).leaf p.anchor? _
      · next ht => simpa [Token.opening] using (hs'.next ht).leaf p.anchor? _
      · next t rest _ _ ht =>
        refine Ends.ite (fun hi => ?_) fun _ => ?_
        · simp only [Bool.and_eq_true] at hi
          exact sequence_composes (h.blockItems true depth n (by simpa [hi.2] using hd)) s' hs'
        refine Ends.ite (fun hk => ?_) fun _ => ?_
        · cases eq_of_beq hk
          exact hs'.enter ht rfl (sequence_composes (h.flowItems true depth (n + 1) hentry))
        refine Ends.ite (fun hk => ?_) fun _ => ?_
        · cases eq_of_beq hk
          exact hs'.enter ht rfl (mapping_composes (h.flowEntries true depth (n + 1) hentry))
        refine Ends.ite (fun hk => ?_) fun _ => ?_
        · simp only [Bool.and_eq_true] at hk
          cases eq_of_beq hk.1
          exact hs'.enter ht rfl (sequence_composes (h.blockItems false depth (n + 1) hitem))
        refine Ends.ite (fun hk => ?_) fun _ => ?_
        · simp only [Bool.and_eq_true] at hk
          cases eq_of_beq hk.1
          exact hs'.enter ht rfl (mapping_composes (h.blockEntries depth (n + 1) hentry))
        exact Ends.ite (fun _ => hs'.leaf p.anchor? _) fun _ => ends_malformed
      · rw [hs'.1]
        exact ends_fault

theorem keeps (fuel : Nat) : Keeps ts fault fuel := by
  induction fuel with
  | zero => exact keeps_zero
  | succ fuel ih =>
    exact {
      node := fun _ _ _ _ hd => node_composes ih hd
      blockItems := fun _ _ _ hd => blockItems_composes ih hd
      blockEntries := fun _ _ hd => blockEntries_composes ih hd
      flowItems := fun _ _ _ hd => flowItems_composes ih hd
      flowEntries := fun _ _ _ hd => flowEntries_composes ih hd }

theorem directives_ends {P : Abort → Prop} (ts : List Token) (versioned : Bool)
    (handles : List (String × String)) :
    Ends P (fun r => ∃ before, ts = before ++ r.2 ∧ openings before = 0)
      (directives ts versioned handles) := by
  have hcons : ∀ (d : Directive) (rest tokens : List Token),
      (∃ before, rest = before ++ tokens ∧ openings before = 0) →
        ∃ before, .directive d :: rest = before ++ tokens ∧ openings before = 0 := by
    rintro d rest tokens ⟨before, hrest, hopen⟩
    refine ⟨.directive d :: before, by simp [hrest], ?_⟩
    simpa [openings, Token.opening] using hopen
  fun_induction directives ts versioned handles with
  | case1 => trivial
  | case2 _ _ _ _ _ ih => exact ih.mono (fun _ ha => ha) fun _ hv => hcons _ _ _ hv
  | case3 => trivial
  | case4 _ _ _ _ _ _ ih => exact ih.mono (fun _ ha => ha) fun _ hv => hcons _ _ _ hv
  | case5 _ _ _ ih => exact ih.mono (fun _ ha => ha) fun _ hv => hcons _ _ _ hv
  | case6 => exact ⟨[], rfl, rfl⟩

theorem header_ends (ts : List Token) (fault : Failure) :
    Ends (Stops ts fault) (fun r => ∃ before, ts = before ++ r.2 ∧ openings before = 0)
      (header ts fault) := by
  unfold header
  split
  · refine (directives_ends ts false []).bind ?_
    rintro ⟨handles, tokens⟩ ⟨before, hts, hopen⟩
    dsimp only at hts ⊢
    split
    · next rest =>
      refine ⟨before ++ [.documentStart], by simp [hts], ?_⟩
      rw [openings_append, hopen]
      rfl
    · exact ends_fault
    · trivial
  · exact ⟨[], rfl, rfl⟩

theorem rootNode_composes (explicit : Bool) : Composes ts fault 0 0 (rootNode explicit) := by
  intro s hs
  unfold rootNode
  split
  · exact hs
  · exact (keeps _).node true false 0 0 (by simp) s hs

theorem ends_unfinished {Q : α → Prop} (h : At ts fault n s) :
    Ends (Stops ts fault) Q (.error s.unfinished) := by
  have hdirectives := directives_ends (P := Stops ts fault) (s.tokens.dropWhile (· == .documentEnd))
    false []
  unfold unfinished
  split
  · next f hf =>
    rw [hf] at hdirectives
    cases f <;> trivial
  · split
    · exact h.1 ▸ ends_fault
    · trivial

/-- The composition of a document from its tokens. -/
theorem document_ends (ts : List Token) (fault : Failure) :
    Ends (Stops ts fault) (fun _ => True) (document ts fault) := by
  unfold document
  split
  · trivial
  · refine (header_ends ts fault).bind ?_
    rintro ⟨handles, rest⟩ hrest
    refine (rootNode_composes _ _ ⟨rfl, hrest⟩).bind ?_
    rintro ⟨root, s⟩ hs
    dsimp only
    split
    · trivial
    · exact ends_unfinished hs

theorem document_stops {a : Abort} (h : document ts fault = .error (.abort a)) :
    fault = .abort a ∨ a = .tooDeep ∧ NestsTooDeep ts :=
  (ends_iff.mp (document_ends ts fault)).2 a h

end Composer

end CeilingGate.Yaml
