import CeilingGate.Proofs.Validation.Checked
import CeilingGate.Proofs.Value.Shown
import CeilingGate.Proofs.Workload.Reading

/-! The quantities of an object, in the order in which they are read. Of all that an object holds, only they
can end the work: the message about one that is no quantity holds its text, or shows its value. -/
namespace CeilingGate.Workload

open CeilingGate.Validation

variable {α : Type} {k : Kind} {raw v w spec : Value} {t : Target} {s : Snapshot} {m : Metadata}
  {entries : Entries} {names : List String} {path : List (List String)} {absent : α}
  {read : Value → Checked α} {model : String}

/-! ## What ends the work -/

/-- A text of which no message can be told, or a value that is nested too deep to be shown. -/
inductive GivesUp : Value → Prop
  | broken (b : BrokenText) : GivesUp (.brokenText b.codes)
  | nested {v : Value} (h : Value.NestsTooDeep callsLeft v) : GivesUp v

/-- The abort in which the reading of a quantity ends. -/
def givesUp? (v : Value) : Option Abort := abort? (readQuantity v)

theorem givesUp?_of_ok {q : Quantity} (h : Quantity.ofValue v = .ok q) : givesUp? v = none := by
  unfold givesUp? readQuantity
  rw [h]
  rfl

theorem givesUp?_of_error {fault : Quantity.Fault} (h : Quantity.ofValue v = .error fault) :
    givesUp? v = fault.abort?.or (Cause.rejected fault.message).abort? := by
  unfold givesUp? readQuantity
  rw [h]
  dsimp only
  cases fault.abort? with
  | none => exact abort?_fail _
  | some a => exact abort?_fail _

/-- A fault is told by a message of characters. -/
def IsTold (fault : Quantity.Fault) : Prop := fault.abort? = none ∧ ∃ s, fault.message = .plain s

theorem givesUp?_of_isTold {fault : Quantity.Fault} (h : Quantity.ofValue v = .error fault)
    (ht : IsTold fault) : givesUp? v = none := by
  obtain ⟨ha, s, hs⟩ := ht
  rw [givesUp?_of_error h, ha, hs]
  rfl

theorem isTold_tooManyDigits : IsTold .tooManyDigits := ⟨rfl, Integer.digitLimitMessage, rfl⟩

theorem isTold_of_valueOf {text : String} {n : Numeral} {suffix : Option Quantity.Suffix}
    {fault : Quantity.Fault} (h : Quantity.valueOf text n suffix = .error fault) : IsTold fault := by
  unfold Quantity.valueOf at h
  split at h
  · split at h <;> cases h
    exact ⟨rfl, _, rfl⟩
  · split at h
    · cases h
      exact ⟨rfl, _, rfl⟩
    · split at h
      · split at h <;> cases h
        exact ⟨rfl, _, rfl⟩
      · cases h
        exact ⟨rfl, _, rfl⟩
      · cases h
        exact ⟨rfl, _, rfl⟩

theorem isTold_of_ofStripped {text : String} {fault : Quantity.Fault}
    (h : Quantity.ofStripped text = .error fault) : IsTold fault := by
  unfold Quantity.ofStripped at h
  split at h
  · cases h
    exact ⟨rfl, _, rfl⟩
  · simp only at h
    split at h
    · cases h
      exact ⟨rfl, _, rfl⟩
    · next n _ =>
      cases hv : Quantity.valueOf text n (Quantity.splitSuffix text.toList).2 with
      | ok q =>
        rw [hv] at h
        cases h
      | error fault' =>
        rw [hv] at h
        cases h
        exact isTold_of_valueOf hv

theorem givesUp?_of_ofStripped {text : String} (h : Quantity.ofValue v = Quantity.ofStripped text) :
    givesUp? v = none := by
  cases hq : Quantity.ofStripped text with
  | ok q => exact givesUp?_of_ok (h.trans hq)
  | error fault => exact givesUp?_of_isTold (h.trans hq) (isTold_of_ofStripped hq)

/-! ## Texts with halves of pairs -/

theorem isBlank_half {n : Nat} (h : Text.isHalfCode n = true) :
    Text.isBlank (Char.ofNat n) = false := by
  have hn : ¬n.isValidChar := by
    simp only [Text.isHalfCode, Bool.and_eq_true, decide_eq_true_eq] at h
    unfold Nat.isValidChar
    omega
  rw [Char.ofNat, dif_neg hn]
  decide

theorem any_half_dropWhile {codes : List Nat} (h : codes.any Text.isHalfCode = true) :
    (codes.dropWhile fun n => Text.isBlank (Char.ofNat n)).any Text.isHalfCode = true := by
  induction codes with
  | nil => exact h
  | cons n rest ih =>
    rw [List.dropWhile_cons]
    split
    · next hb =>
      refine ih ?_
      rw [List.any_cons, Bool.or_eq_true] at h
      refine h.resolve_left fun hn => ?_
      rw [isBlank_half hn] at hb
      cases hb
    · exact h

theorem any_half_stripCodes {codes : List Nat} (h : codes.any Text.isHalfCode = true) :
    (RawText.stripCodes codes).any Text.isHalfCode = true := by
  rw [RawText.stripCodes, List.any_reverse]
  exact any_half_dropWhile (by rw [List.any_reverse]; exact any_half_dropWhile h)

/-- A suffix is written in letters. -/
theorem splitSuffix_append (cs : List Char) :
    ∃ tail, cs = (Quantity.splitSuffix cs).1 ++ tail ∧ '\ufffd' ∉ tail := by
  have hletter : ∀ c, Quantity.isUnitLetter c = true → '\ufffd' ≠ c := by
    rintro c hc rfl
    exact absurd hc (by decide)
  have hcs : cs = cs.reverse.reverse := cs.reverse_reverse.symm
  unfold Quantity.splitSuffix
  split
  · next c rest hr =>
    split
    · next hc => exact ⟨[c, 'i'], by rw [hcs, hr]; simp, by simp [hletter c hc]⟩
    · exact ⟨[], by simp⟩
  · next c rest _ hr =>
    split
    · next hc => exact ⟨[c], by rw [hcs, hr]; simp, by simp [hletter c hc]⟩
    · exact ⟨[], by simp⟩
  · exact ⟨[], by simp⟩

/-- The number before a suffix keeps all halves of pairs. -/
theorem any_half_number {codes : List Nat} (h : codes.any Text.isHalfCode = true) :
    (codes.take (Quantity.splitSuffix (RawText.broken ⟨codes, h⟩).shape).1.length).any
      Text.isHalfCode = true := by
  obtain ⟨tail, htail, hno⟩ := splitSuffix_append (RawText.broken ⟨codes, h⟩).shape
  generalize (Quantity.splitSuffix (RawText.broken ⟨codes, h⟩).shape).1 = number at htail ⊢
  have hdrop : '\ufffd' ∉ (codes.drop number.length).map fun n =>
      if Text.isHalfCode n then '\ufffd' else Char.ofNat n := by
    rw [List.map_drop]
    have : (codes.map fun n => if Text.isHalfCode n then '\ufffd' else Char.ofNat n) =
        number ++ tail := htail
    rw [this, List.drop_left]
    exact hno
  rw [← List.take_append_drop number.length codes, List.any_append, Bool.or_eq_true] at h
  refine h.resolve_right fun hd => hdrop ?_
  obtain ⟨n, hn, hhalf⟩ := List.any_eq_true.mp hd
  exact List.mem_map.mpr ⟨n, hn, by simp [hhalf]⟩

/-- The message about a text with a half of a pair holds that half. -/
theorem message_ofRaw_broken (b : BrokenText) :
    ∃ fault b', Quantity.ofRaw (.broken b) = .error fault ∧ fault.abort? = none ∧
      fault.message = .broken b' := by
  obtain ⟨t, ht⟩ : ∃ t, RawText.strip (.broken b) = .broken t :=
    ⟨_, dif_pos (any_half_stripCodes b.hasHalf)⟩
  have hnumber : ((RawText.broken t).take
      (Quantity.splitSuffix (RawText.broken t).shape).1.length).codes.any Text.isHalfCode = true := by
    have h := any_half_number t.hasHalf
    rw [RawText.take, RawText.codes_ofCodes_of_half h]
    exact h
  obtain ⟨b', hb'⟩ := RawText.append_broken
    (.plain ("invalid quantity " ++ (RawText.broken t).quoted ++ ": Invalid number format: ")) hnumber
  refine ⟨.format (.broken t) _, b', ?_, rfl, hb'⟩
  simp only [Quantity.ofRaw, ht]

theorem parts_ne_nil_of_nestsTooDeep {calls : Nat} (h : Value.NestsTooDeep calls v) : v.parts ≠ [] := by
  cases h with
  | here h => exact h
  | inside h _ _ => simp [h]

theorem givesUp_iff_nested (hn : ∀ b : BrokenText, v ≠ .brokenText b.codes) :
    GivesUp v ↔ Value.NestsTooDeep callsLeft v := by
  refine ⟨fun h => ?_, .nested⟩
  cases h with
  | broken b => exact absurd rfl (hn b)
  | nested h => exact h

theorem not_givesUp_of_parts (hn : ∀ b : BrokenText, v ≠ .brokenText b.codes) (hp : v.parts = []) :
    ¬GivesUp v := by
  rw [givesUp_iff_nested hn]
  exact fun h => parts_ne_nil_of_nestsTooDeep h hp

theorem givesUp?_int (i : Int) : givesUp? (.int i) = none := by
  have h : Quantity.ofInt i = .error .tooManyDigits ∨
      ∃ s, Quantity.ofInt i = Quantity.ofStripped s := by
    unfold Quantity.ofInt
    split
    · next s _ => exact .inr ⟨s, rfl⟩
    · exact .inl rfl
  obtain h | ⟨s, h⟩ := h
  · exact givesUp?_of_isTold h isTold_tooManyDigits
  · exact givesUp?_of_ofStripped h

theorem givesUp?_of_refused (h : Quantity.ofValue v = Quantity.refuse v) :
    (givesUp? v).isSome ↔ Value.NestsTooDeep callsLeft v := by
  rw [← Value.unshown?_eq_tooDeep_iff]
  unfold Quantity.refuse at h
  split at h
  · next hu =>
    rw [givesUp?_of_error h, hu]
    simp [Quantity.Fault.abort?]
  · next hu =>
    rw [givesUp?_of_isTold h ⟨rfl, _, rfl⟩]
    simpa using hu
  · next hu =>
    rw [givesUp?_of_isTold h isTold_tooManyDigits]
    simpa using hu

/-- Reading a quantity ends the work exactly for these values. -/
theorem givesUp?_isSome_iff : (givesUp? v).isSome ↔ GivesUp v := by
  cases v with
  | quantity q =>
    have hnone := not_givesUp_of_parts (v := .quantity q) (by simp) rfl
    simp [givesUp?_of_ok (v := .quantity q) rfl, hnone]
  | text s =>
    have hnone := not_givesUp_of_parts (v := .text s) (by simp) rfl
    have hread : Quantity.ofValue (.text s) = Quantity.ofStripped (Text.strip s) := rfl
    simp [givesUp?_of_ofStripped hread, hnone]
  | float x =>
    have hnone := not_givesUp_of_parts (v := .float x) (by simp) rfl
    simp [givesUp?_of_ofStripped (v := .float x) rfl, hnone]
  | decimal n =>
    have hnone := not_givesUp_of_parts (v := .decimal n) (by simp) rfl
    simp [givesUp?_of_ofStripped (v := .decimal n) rfl, hnone]
  | int i =>
    have hnone := not_givesUp_of_parts (v := .int i) (by simp) rfl
    simp [givesUp?_int, hnone]
  | brokenText codes =>
    by_cases hhalf : codes.any Text.isHalfCode = true
    · obtain ⟨fault, b', hf, ha, hm⟩ := message_ofRaw_broken ⟨codes, hhalf⟩
      have h : Quantity.ofValue (.brokenText codes) = .error fault := by
        rw [← hf, Quantity.ofValue, RawText.ofCodes, dif_pos hhalf]
      rw [givesUp?_of_error h, ha, hm]
      exact iff_of_true rfl (.broken ⟨codes, hhalf⟩)
    · have h : Quantity.ofValue (.brokenText codes) =
          Quantity.ofStripped (Text.strip (String.ofList (codes.map Char.ofNat))) := by
        rw [Quantity.ofValue, RawText.ofCodes, dif_neg hhalf]
        rfl
      have hnone := not_givesUp_of_parts (v := .brokenText codes)
        (fun b hb => hhalf (by cases hb; exact b.hasHalf)) rfl
      simp [givesUp?_of_ofStripped h, hnone]
  | _ =>
    rw [givesUp_iff_nested (by simp)]
    exact givesUp?_of_refused rfl

/-! ## Where quantities stand -/

/-- The contents of the mapping at the end of a path. -/
def contentsAt (path : List (List String)) (v : Value) : List Value :=
  match at? path v with
  | some (.dict entries) => entries.map (·.2)
  | _ => []

/-- The limits and requests at the end of a path. -/
def quantitiesAt (path : List (List String)) (v : Value) : List Value :=
  contentsAt (path ++ [["limits"]]) v ++ contentsAt (path ++ [["requests"]]) v

/-- What stands for the quantities of a pod's containers, in order. -/
def podQuantities (spec : Value) : List Value :=
  (itemsAt [["containers"]] spec).flatMap (quantitiesAt [["resources"]])

/-- What stands for the quantities of an object, in order. -/
def quantitiesOf (k : Kind) (v : Value) : List Value :=
  if k = .volumeClaim then quantitiesAt [["spec"], ["resources"]] v
  else if k.hasContainers then ((at? (podSpecPath k) v).map podQuantities).getD []
  else []

theorem abort?_readVia :
    abort? (readVia model names absent read v) =
      (held? names v).bind fun w => abort? (read w) := by
  cases v with
  | dict entries =>
    rw [readVia, readRecord]
    dsimp only
    rw [abort?_field, held?, Option.bind_map]
    rfl
  | _ => rfl

theorem abort?_readMetadata (v : Value) : abort? (readMetadata v) = none := by
  cases v with
  | dict entries =>
    simp only [readMetadata, readRecord, abort?_apply, abort?_map, abort?_field, abort?_readText,
      Option.bind_fun_none, Option.or_none]
  | _ => rfl

theorem abort?_readObject {readSpec : Value → Checked α} :
    abort? (readObject model absent readSpec v) =
      (held? ["spec"] v).bind fun w => abort? (readSpec w) := by
  cases v with
  | dict entries =>
    simp only [readObject, readRecord, abort?_apply, abort?_map, abort?_field, abort?_readMetadata,
      Option.bind_fun_none, Option.none_or, held?, Option.bind_map]
    rfl
  | _ => rfl

/-- The quantities in a mapping, and in limits and requests, are read in order. -/
theorem abort?_readMapping_quantities (v : Value) :
    abort? (readMapping readQuantity v) = (contentsAt [] v).findSome? givesUp? := by
  cases v with
  | dict entries =>
    rw [abort?_readMapping, contentsAt, at?]
    dsimp only
    rw [List.findSome?_map]
    rfl
  | _ => rfl

theorem contentsAt_cons : contentsAt (names :: path) v =
    ((held? names v).map (contentsAt path)).getD [] := by
  simp only [contentsAt, at?]
  cases held? names v <;> rfl

theorem abort?_readResources (v : Value) :
    abort? (readResources v) = (quantitiesAt [] v).findSome? givesUp? := by
  cases v with
  | dict entries =>
    simp only [readResources, readRecord, abort?_apply, abort?_map, abort?_field,
      abort?_readMapping_quantities, quantitiesAt, List.nil_append, List.findSome?_append,
      contentsAt_cons, held?]
    cases named? entries ["limits"] <;> cases named? entries ["requests"] <;> rfl
  | _ => rfl

theorem quantitiesAt_cons : quantitiesAt (names :: path) v =
    ((held? names v).map (quantitiesAt path)).getD [] := by
  simp only [quantitiesAt, List.cons_append, contentsAt_cons]
  cases held? names v <;> rfl

theorem abort?_readContainer (v : Value) :
    abort? (readContainer v) = (quantitiesAt [["resources"]] v).findSome? givesUp? := by
  rw [quantitiesAt_cons]
  cases v with
  | dict entries =>
    simp only [readContainer, readRecord, abort?_apply, abort?_map, abort?_field, abort?_readText,
      abort?_readResources, Option.bind_fun_none, Option.none_or, held?]
    cases named? entries ["resources"] <;> rfl
  | _ => rfl

theorem findSome?_flatMap {β γ : Type} {f : α → List β} {p : β → Option γ} (xs : List α) :
    (xs.flatMap f).findSome? p = xs.findSome? fun x => (f x).findSome? p := by
  induction xs with
  | nil => rfl
  | cons x rest ih =>
    rw [List.flatMap_cons, List.findSome?_append, ih, List.findSome?_cons]
    cases (f x).findSome? p <;> rfl

theorem abort?_readPodSpec (v : Value) :
    abort? (readPodSpec v) = (podQuantities v).findSome? givesUp? := by
  rw [readPodSpec, abort?_readVia, podQuantities, itemsAt, at?]
  cases hc : held? ["containers"] v with
  | none => rfl
  | some w =>
    cases w with
    | list vs | tuple vs | set vs =>
      simp only [Option.bind_some, readList, abort?_readListFrom, abort?_readContainer, at?,
        Option.map_some, items, Option.getD_some, findSome?_flatMap]
    | _ => rfl

theorem abort?_readTemplatedSpec (v : Value) :
    abort? (readTemplatedSpec v) =
      (at? [["template"], ["spec"]] v).bind fun w => (podQuantities w).findSome? givesUp? := by
  have htemplate : ∀ w, abort? (readPodTemplate w) =
      (held? ["spec"] w).bind fun u => (podQuantities u).findSome? givesUp? := by
    intro w
    simp only [readPodTemplate, abort?_map, abort?_readObject, abort?_readPodSpec]
  simp only [readTemplatedSpec, abort?_readVia, htemplate, at?, Option.bind_assoc,
    Option.bind_some]

/-- Pods are read from the end of the path where their kind keeps them. -/
theorem abort?_readSnapshot (k : Kind) (t : Target) (v : Value) :
    abort? (readSnapshot k t v) = (quantitiesOf k v).findSome? givesUp? := by
  have hat : ∀ w? : Option Value,
      ((w?.map podQuantities).getD []).findSome? givesUp? =
        w?.bind fun w => (podQuantities w).findSome? givesUp? := by
    rintro (_ | w) <;> rfl
  cases k with
  | unrecognised => rfl
  | volumeClaim =>
    simp only [readSnapshot, abort?_map, readVolumeClaim, abort?_readObject, abort?_readVia,
      abort?_readResources, quantitiesOf, if_true, quantitiesAt_cons]
    cases held? ["spec"] v with
    | none => rfl
    | some w =>
      simp only [Option.bind_some, Option.map_some, Option.getD_some, quantitiesAt_cons]
      cases held? ["resources"] w <;> rfl
  | _ =>
    simp only [readSnapshot, abort?_map, readPod, readTemplated, readCronJob, abort?_readObject,
      abort?_readVia, readJobTemplate, abort?_readTemplatedSpec, abort?_readPodSpec, quantitiesOf,
      Kind.hasContainers, reduceCtorEq, if_false, if_true, hat, podSpecPath, at?, Option.bind_assoc,
      Option.bind_some]

/-- Reading the object of a kind ends the work exactly if a quantity of it does. -/
theorem abort?_readSnapshot_isSome_iff :
    (abort? (readSnapshot k t v)).isSome ↔ ∃ q ∈ quantitiesOf k v, GivesUp q := by
  simp only [abort?_readSnapshot, List.findSome?_isSome_iff, givesUp?_isSome_iff]

end CeilingGate.Workload
