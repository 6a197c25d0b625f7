import CeilingGate.Proofs.Yaml.Build
import CeilingGate.Proofs.Yaml.Compose
import CeilingGate.Proofs.Yaml.Tokens
import CeilingGate.Yaml.Document

/-! Reading a text as YAML: what stops it for good, and what the values are like. -/
namespace CeilingGate.Yaml

variable {cs : List Char} {a : Abort} {g : Graph} {b : Builder} {root : NodeId}

/-- What stops the reading of a text for good: an escape of a code that is too large, collections that
are open inside each other, or the building of its graph. -/
inductive Stops (cs : List Char) (a : Abort) : Prop
  | escape (ha : a = .hugeCode) (h : HugeEscape cs)
  | nesting (ha : a = .tooDeep) (h : Composer.NestsTooDeep (tokens cs).1)
  | building {root : NodeId} {g : Graph} (hg : graph cs = .ok (some (root, g))) (h : g.Stops root Builder.frameLimit a)

/-- A mapping has keys that can be looked into. -/
def HasKeys : Value → Prop
  | .dict es => ∀ e ∈ es, IsKey e.1
  | _ => True

/-- The mappings below the top of a document have such keys. -/
def IsDocument : Value → Prop
  | .dict es => ∀ e ∈ es, HasKeys e.2
  | _ => True

/-- What a builder sees of a mapping: keys, each with what it sees of a node. -/
theorem Builder.Sound.of_mem_value (h : Builder.Sound g b) {depth : Nat} {id : NodeId}
    {es : List (Value × Value)} {e : Value × Value} (hv : b.value depth id = .dict es) (he : e ∈ es) :
    IsKey e.1 ∧ ∃ depth' id', e.2 = b.value depth' id' := by
  unfold Builder.value at hv
  split at hv
  · cases hv
  · next v hc =>
    have hleaf : IsLeaf v := (h.contents _ _ hc).keys
    rw [hv] at hleaf
    exact hleaf.elim
  · cases hv
  · cases hv
  · cases hv
    cases he
  · cases hv
  · cases hv
  · next entries hc =>
    cases hv
    obtain ⟨entry, hentry, rfl⟩ := List.mem_map.mp he
    exact ⟨(h.contents _ _ hc).keys entry hentry, _, entry.2, rfl⟩
  · cases hv

theorem Builder.Sound.value_hasKeys (h : Builder.Sound g b) (depth : Nat) (id : NodeId) :
    HasKeys (b.value depth id) := by
  cases hv : b.value depth id with
  | dict es => exact fun e he => (h.of_mem_value hv he).1
  | _ => trivial

theorem Builder.Sound.value_isDocument (h : Builder.Sound g b) (depth : Nat) (id : NodeId) :
    IsDocument (b.value depth id) := by
  cases hv : b.value depth id with
  | dict es =>
    intro e he
    obtain ⟨_, depth', id', hcontent⟩ := h.of_mem_value hv he
    rw [hcontent]
    exact h.value_hasKeys depth' id'
  | _ => trivial

theorem graph_ends (cs : List Char) : Ends (Stops cs) (fun r => graph cs = .ok r) (graph cs) := by
  rw [ends_iff]
  refine ⟨fun r hr => hr, ?_⟩
  intro a ha
  unfold graph at ha
  split at ha
  · generalize htokens : tokens cs = scanned at ha
    obtain ⟨ts, fault?⟩ := scanned
    obtain hfault | ⟨htooDeep, hnest⟩ := Composer.document_stops ha
    · cases fault? with
      | none => cases hfault
      | some f =>
        have hstop : (tokens cs).2 = some (.abort a) := by
          rw [htokens]
          exact congrArg some hfault
        exact .escape (tokens_stops hstop).1 (tokens_stops hstop).2
    · refine .nesting htooDeep ?_
      rwa [htokens]
  · cases ha

/-- Reading a text ends in a document, in a failure that can be told, or for one of the reasons that
stop it for good. -/
theorem read_ends (cs : List Char) : Ends (Stops cs) IsDocument (read cs) := by
  unfold read
  refine (graph_ends cs).bind ?_
  intro r hr
  split
  · trivial
  · next root g =>
    have hbuild := (Builder.ofGraph_ends g root).mono (fun a ha => Stops.building hr ha)
      fun _ h => h
    refine hbuild.bind ?_
    intro b hb
    exact hb.value_isDocument viewDepth root

end CeilingGate.Yaml
