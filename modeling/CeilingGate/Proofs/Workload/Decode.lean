import CeilingGate.Proofs.Json.Limits
import CeilingGate.Proofs.Workload.Quantities

/-! How decoding an object ends: in a snapshot of its kind, in a fault, or in neither. The last happens for
a JSON text that its reader gives up on, and for a quantity of which no message can be told. -/
namespace CeilingGate.Workload

open CeilingGate.Validation

variable {k : Kind} {raw v spec : Value} {t : Target} {s : Snapshot} {a : Abort} {text : RawText}

/-- The JSON text that an object is given as. -/
def jsonText? : Value → Option RawText
  | .text s => some s
  | .brokenText codes => some (.ofCodes codes)
  | .bytes bs => (Text.ofUtf8? bs).map .plain
  | _ => none

/-- How the body of a text is read, and the characters it is read from. -/
def bodyReading : RawText → Json.Dialect × List Char
  | .plain s => (Json.bodyDialect, s.toList)
  | .broken b => ({ Json.bodyDialect with original := b.codes }, (RawText.broken b).shape)

/-- A text nests collections too deep, or writes an integer of too many digits. -/
def TextGivesUp (text : RawText) : Prop :=
  ∃ reason, Json.GivesUp (bodyReading text).1 (bodyReading text).2 reason

/-- An object is given as a text that its reader gives up on, or has a quantity that the work ends at. -/
def GivesUpOn (k : Kind) (raw : Value) : Prop :=
  (∃ text, jsonText? raw = some text ∧ TextGivesUp text) ∨
    ∃ v, bodyObject raw = .ok v ∧ ∃ q ∈ quantitiesOf k v, GivesUp q

theorem readRaw_body (text : RawText) :
    Json.readRaw Json.bodyDialect text = Json.read (bodyReading text).1 (bodyReading text).2 := by
  cases text <;> rfl

theorem digits_pos (text : RawText) : 0 < (bodyReading text).1.digits := by
  cases text <;> exact (by decide : 0 < Integer.digitLimit)

theorem readBody_eq_abort_iff :
    (∃ a, readBody text = .error (.abort a)) ↔ TextGivesUp text := by
  have hiff : ∀ reason, reason ≠ .malformed →
      (Json.readRaw Json.bodyDialect text = .error reason ↔
        Json.GivesUp (bodyReading text).1 (bodyReading text).2 reason) := by
    intro reason hr
    rw [readRaw_body]
    exact Json.read_eq_error_iff hr (digits_pos text)
  constructor
  · rintro ⟨a, h⟩
    unfold readBody at h
    split at h
    · cases h
    · cases h
    · next hread => exact ⟨_, (hiff _ (by simp)).mp hread⟩
    · next hread => exact ⟨_, (hiff _ (by simp)).mp hread⟩
  · rintro ⟨reason, h⟩
    have hr := h.ne_malformed
    have hread := (hiff reason hr).mpr h
    unfold readBody
    rw [hread]
    cases reason with
    | malformed => exact absurd rfl hr
    | tooDeep => exact ⟨_, rfl⟩
    | tooManyDigits n => exact ⟨_, rfl⟩

theorem bodyValue_eq_abort_iff :
    (∃ a, bodyValue raw = .error (.abort a)) ↔
      ∃ text, jsonText? raw = some text ∧ TextGivesUp text := by
  have htext : ∀ text, (∃ text', some text = some text' ∧ TextGivesUp text') ↔ TextGivesUp text := by
    simp
  cases raw with
  | text s => exact readBody_eq_abort_iff.trans (htext _).symm
  | brokenText codes => exact readBody_eq_abort_iff.trans (htext _).symm
  | bytes bs =>
    cases h : Text.ofUtf8? bs with
    | none => simp [bodyValue, jsonText?, h]
    | some s =>
      simp only [bodyValue, jsonText?, h, Option.map_some]
      exact readBody_eq_abort_iff.trans (htext _).symm
  | _ => simp [bodyValue, jsonText?]

theorem bodyObject_eq_abort_iff :
    bodyObject raw = .error (.abort a) ↔ bodyValue raw = .error (.abort a) := by
  unfold bodyObject
  cases bodyValue raw with
  | error e => simp [bind, Except.bind]
  | ok v =>
    cases v <;>
      simp [bind, Except.bind, pure, Except.pure, throw, throwThe, MonadExceptOf.throw]

theorem decode_of_object_eq_abort_iff (hk : k ≠ .unrecognised) (hv : bodyObject raw = .ok v) :
    decode k raw t = .error (.abort a) ↔ abort? (readSnapshot k t v) = some a := by
  rw [decode_of_object hk hv]
  cases readSnapshot k t v with
  | ok s => simp [Except.mapError, abort?]
  | error issues => simp [Except.mapError, abort?, stopOf_eq_abort_iff]

/-- Nothing else keeps decoding from a snapshot and a fault alike. -/
theorem decode_eq_abort_iff (hk : k ≠ .unrecognised) :
    (∃ a, decode k raw t = .error (.abort a)) ↔ GivesUpOn k raw := by
  unfold GivesUpOn
  rw [← bodyValue_eq_abort_iff]
  simp only [← bodyObject_eq_abort_iff]
  cases hv : bodyObject raw with
  | error e => simp [decode, hk, hv, bind, Except.bind]
  | ok v =>
    simp only [decode_of_object_eq_abort_iff hk hv, ← Option.isSome_iff_exists,
      abort?_readSnapshot_isSome_iff]
    simp

/-- Ten to the power of `n`. -/
def powerText (n : Nat) : String := String.ofList ('1' :: List.replicate n '0')

theorem givesUp_powerText {n : Nat} (h : Json.bodyDialect.digits < n + 1) :
    TextGivesUp (powerText n) := by
  have hd : ∀ d ∈ '1' :: List.replicate n '0', d.isDigit = true := by
    intro d hm
    rcases List.mem_cons.mp hm with rfl | hm
    · decide
    · rw [List.eq_of_mem_replicate hm]
      decide
  have hwhole : Json.IsWhole ('1' :: List.replicate n '0') [] :=
    ⟨hd, by simp, by simp, by simp, by simp⟩
  refine ⟨_, .digits .start (.inl ?_) hwhole ?_⟩
  · simp [bodyReading, powerText, Json.skipSpaces, Json.isSpace]
  · simpa [bodyReading] using h

theorem readSnapshot_kind (h : readSnapshot k t v = .ok s) : s.kind = k := by
  cases k with
  | unrecognised =>
    cases h
    rfl
  | _ =>
    obtain ⟨r, _, he⟩ := map_eq_ok.mp h
    rw [← he]
    rfl

theorem decode_kind (hk : k ≠ .unrecognised) (h : decode k raw t = .ok s) : s.kind = k := by
  simp only [decode, beq_iff_eq, hk, if_false] at h
  obtain ⟨v, _, h⟩ := bind_eq_ok.mp h
  cases hs : readSnapshot k t v with
  | error issues =>
    rw [hs] at h
    cases h
  | ok s' =>
    rw [hs] at h
    cases h
    exact readSnapshot_kind hs

theorem quantitiesOf_of_carries (h : Carries k v spec) : quantitiesOf k v = podQuantities spec := by
  have hc : k ≠ .volumeClaim := by
    rintro rfl
    cases h.hasContainers
  rw [quantitiesOf, if_neg hc, if_pos h.hasContainers, h.spec_at]
  rfl

/-- What a body holds is decoded, refused or given up as its pods are. -/
theorem decode_of_bodyOf {name : RawText} (h : BodyOf k raw name spec) (t : Target) :
    match readPodSpec spec with
    | .ok cs => ∃ m, m.name = name ∧ decode k raw t = .ok (ofContainers k t (m, cs))
    | .error _ =>
      match (podQuantities spec).findSome? givesUp? with
      | some a => decode k raw t = .error (.abort a)
      | none => ∃ f, decode k raw t = .error (.fault f) := by
  obtain ⟨v, m, hv, hc, hm, hname⟩ := h
  have hk := ne_unrecognised_of_hasContainers hc.hasContainers
  have hsnapshot := toOption_readSnapshot (t := t) hc hm
  have habort := abort?_readSnapshot k t v
  rw [quantitiesOf_of_carries hc] at habort
  cases hp : readPodSpec spec with
  | ok cs =>
    rw [hp] at hsnapshot
    cases hs : readSnapshot k t v with
    | ok s =>
      rw [hs] at hsnapshot
      refine ⟨m, hname, ?_⟩
      rw [decode_of_object hk hv, hs]
      exact congrArg Except.ok (Option.some.inj hsnapshot)
    | error issues =>
      rw [hs] at hsnapshot
      cases hsnapshot
  | error issues =>
    rw [hp] at hsnapshot
    cases hs : readSnapshot k t v with
    | ok s =>
      rw [hs] at hsnapshot
      cases hsnapshot
    | error issues =>
      rw [hs] at habort
      have hd : decode k raw t = .error (stopOf (.invalid k t) issues) := by
        rw [decode_of_object hk hv, hs]
        rfl
      dsimp only
      cases ha : (podQuantities spec).findSome? givesUp? with
      | some a => exact (decode_of_object_eq_abort_iff hk hv).mpr (by rw [hs, habort, ha])
      | none =>
        rw [ha] at habort
        refine ⟨.invalid k t issues, ?_⟩
        rw [hd, stopOf, show firstAbort? issues = none from habort]

end CeilingGate.Workload
