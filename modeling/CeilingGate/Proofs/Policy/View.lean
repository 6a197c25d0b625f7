import CeilingGate.Policy.Loader
import CeilingGate.Proofs.Validation.Checked
import CeilingGate.Proofs.Value.Keys
import Mathlib.Control.Basic

/-! How deep a reader of policies looks into a document. Below the limits of its blocks, nothing makes a
difference. -/
namespace CeilingGate

open CeilingGate.Validation

/-- A value without what its lists hold, and without what more than `depth` mappings are around. -/
def Value.cut : Nat → Value → Value
  | _, .list _ => .list []
  | 0, .dict _ => .dict []
  | depth + 1, .dict entries => .dict (entries.map fun e => (e.1, cut depth e.2))
  | _, v => v

/-- A builder that looks deeper sees nothing else as far as the other one looks. -/
theorem Yaml.Builder.cut_value (b : Builder) {n m m' : Nat} (h : n ≤ m) (h' : n ≤ m') (id : NodeId) :
    (b.value m id).cut n = (b.value m' id).cut n := by
  induction n generalizing m m' id with
  | zero =>
    cases hc : b.content? id with
    | none => simp [value, hc]
    | some c => cases c <;> cases m <;> cases m' <;> simp [value, hc, Value.cut]
  | succ n ih =>
    obtain ⟨m, rfl⟩ := Nat.exists_eq_add_of_le' h
    obtain ⟨m', rfl⟩ := Nat.exists_eq_add_of_le' h'
    have hcut (id : NodeId) := ih (Nat.le_add_left n m) (Nat.le_add_left n m') id
    cases hc : b.content? id with
    | none => simp [value, hc]
    | some c => cases c <;> simp [value, hc, Value.cut, ← Nat.add_assoc, hcut]

namespace Validation

variable {α κ ι : Type} {entries : Entries} {f : Value → Value}

theorem named?_map (names : List String) :
    named? (entries.map fun e => (e.1, f e.2)) names =
      (named? entries names).map fun e => (e.1, f e.2) := by
  have hfind (name : String) : Value.find? (entries.map fun e => (e.1, f e.2)) name =
      (Value.find? entries name).map f := by
    simp only [Value.find?, List.find?_map, Option.map_map]
    rfl
  simp only [named?, hfind, List.map_findSome?, Option.map_map, Function.comp_def]

/-- What is done to the content of a field can be done by its reader. -/
theorem field_map (names : List String) (absent : α) (read : Value → Checked α) :
    field (entries.map fun e => (e.1, f e.2)) names absent read =
      field entries names absent fun v => read (f v) := by
  unfold field
  rw [named?_map]
  cases named? entries names <;> rfl

theorem readMapping_map (read : Value → Checked α) :
    readMapping read (.dict (entries.map fun e => (e.1, f e.2))) =
      readMapping (fun v => read (f v)) (.dict entries) := by
  simp only [readMapping, List.map_map]
  rfl

/-- What reads the keys of entries leaves their contents alone. -/
theorem mapM_keys {m : Type → Type} [Monad m] [LawfulMonad m] {F : κ × α → m (ι × α)} (g : κ → m ι)
    (hF : ∀ k a, F (k, a) = (·, a) <$> g k) (f : α → α) (entries : List (κ × α)) :
    (entries.map fun e => (e.1, f e.2)).mapM F =
      List.map (fun e => (e.1, f e.2)) <$> entries.mapM F := by
  induction entries with
  | nil => simp
  | cons e rest ih => simp [List.mapM_cons, ih, hF]

end Validation

namespace Policy

theorem readLimitText_cut (n : Nat) (v : Value) :
    Block.readLimitText (v.cut n) = Block.readLimitText v := by
  cases v <;> cases n <;> rfl

theorem readBool_cut (n : Nat) (v : Value) : readBool (v.cut n) = readBool v := by
  cases v <;> cases n <;> rfl

theorem ofEntries_cut (n : Nat) (entries : Entries) :
    Block.ofEntries (entries.map fun e => (e.1, e.2.cut n)) = Block.ofEntries entries := by
  simp only [Block.ofEntries, Block.readDimension, field_map, readLimitText_cut, readBool_cut]

theorem read_cut (n : Nat) (v : Value) : Block.read (v.cut (n + 1)) = Block.read v := by
  cases v with
  | dict entries => exact ofEntries_cut n entries
  | _ => rfl

theorem namespaceKeys_map (f : Value → Value) (entries : Entries) :
    Document.namespaceKeys (entries.map fun e => (e.1, f e.2)) =
      (Document.namespaceKeys entries).map (List.map fun e => (e.1, f e.2)) := by
  unfold Document.namespaceKeys
  rw [mapM_keys (fun k => k.text?.map RawText.toValue)
    (fun k _ => by simp only [Option.map_eq_map, Option.map_map]; rfl)]
  generalize List.mapM (m := Option) _ entries = named?
  cases named? with
  | none => rfl
  | some named => exact congrArg Except.ok (Value.ofEntries_map f named)

theorem nameKeys_map (f : Value → Value) (entries : Entries) :
    Document.nameKeys (entries.map fun e => (e.1, f e.2)) =
      (Document.nameKeys entries).map (List.map fun e => (e.1, f e.2)) := by
  unfold Document.nameKeys
  dsimp only
  rw [mapM_keys NameKey.read fun k _ => by simp only [bind_pure_comp]]
  generalize List.mapM (m := Except NameKey.Fault) _ entries = read
  cases read with
  | error fault => rfl
  | ok named => exact congrArg Except.ok (Keyed.ofList_map f named)

theorem readNamespaces_cut (v : Value) :
    Document.readNamespaces (v.cut 2) = Document.readNamespaces v := by
  cases v with
  | dict entries =>
    simp only [Document.readNamespaces, Value.cut, namespaceKeys_map]
    cases Document.namespaceKeys entries with
    | error issues => rfl
    | ok named =>
      change readMapping Block.read (.dict (named.map fun e => (e.1, e.2.cut 1))) = _
      simp only [readMapping_map, read_cut]
  | _ => rfl

theorem readNames_cut (v : Value) : Document.readNames (v.cut 2) = Document.readNames v := by
  cases v with
  | dict entries =>
    simp only [Document.readNames, Value.cut, nameKeys_map]
    cases Document.nameKeys entries with
    | error fault => rfl
    | ok named =>
      simp only [Except.map, Document.readNameBlocks, List.map_map, Function.comp_def, read_cut]
  | _ => rfl

theorem namesField_cut (entries : Entries) :
    Document.namesField (entries.map fun e => (e.1, e.2.cut 2)) = Document.namesField entries := by
  unfold Document.namesField
  rw [named?_map]
  cases named? entries ["customNames", "names"] with
  | none => rfl
  | some e => exact congrArg (Except.map fun c => c.under (.key e.1)) (readNames_cut e.2)

/-- A document is read from what three mappings inside of each other show. -/
theorem readDocument_cut (v : Value) : readDocument (v.cut 3) = readDocument v := by
  cases v with
  | dict entries =>
    have hdocument : Document.ofEntries (entries.map fun e => (e.1, e.2.cut 2)) =
        Document.ofEntries entries := by
      simp only [Document.ofEntries, namesField_cut, ofEntries_cut, field_map, readNamespaces_cut]
    simp only [readDocument, readDocument.readEntries, Value.cut, hdocument]
  | _ => rfl

/-- Looking deeper than `viewDepth` makes no other policy of a document. -/
theorem generationOf_deeper (b : Yaml.Builder) {n : Nat} (h : Yaml.viewDepth ≤ n) (root : Yaml.NodeId)
    (source? : Option RawText) :
    generationOf (b.value n root) source? = generationOf (b.value Yaml.viewDepth root) source? := by
  have hcut : (b.value n root).cut 3 = (b.value Yaml.viewDepth root).cut 3 :=
    b.cut_value (Nat.le_of_succ_le h) (by decide) root
  have hread : readDocument (b.value n root) = readDocument (b.value Yaml.viewDepth root) := by
    rw [← readDocument_cut, hcut, readDocument_cut]
  simp only [generationOf, hread]

end Policy

end CeilingGate
