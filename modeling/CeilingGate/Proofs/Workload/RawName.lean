import CeilingGate.Proofs.Workload.Places

/-! Names of objects, which may hold halves of pairs. They are cut as names of characters are, with a
character that is no dash, letter, digit or line feed for each half. -/
namespace CeilingGate

namespace RawText

variable {t : RawText} {n : Nat}

theorem length_shape : ∀ t : RawText, t.shape.length = t.codes.length
  | plain s => by simp [shape, codes]
  | broken b => by simp [shape, codes]

theorem take_eq : ∀ t : RawText, t.take n = ofCodes (t.codes.take n)
  | plain s => by
    have htake : (s.toList.map Char.toNat).take n = (plain (String.ofList (s.toList.take n))).codes := by
      simp [codes]
    rw [codes, htake, ofCodes_codes]
    rfl
  | broken b => rfl

theorem shape_eq_map : ∀ t : RawText,
    t.shape = t.codes.map fun n => if Text.isHalfCode n then '\ufffd' else Char.ofNat n
  | plain s => by simp [shape, codes, Function.comp_def, isHalfCode_toNat, Char.ofNat_toNat]
  | broken b => rfl

theorem shape_append (s t : RawText) : (s ++ t).shape = s.shape ++ t.shape := by
  simp only [shape_eq_map, codes_append, List.map_append]

theorem shape_plain (s : String) : (plain s).shape = s.toList := rfl

end RawText

namespace Workload

variable {t u : RawText} {a b h x : String}

theorem stem_starts (cs : List Char) : stem cs <+: cs := by
  obtain hstem | ⟨tail, rest, -, -, hcs⟩ := stem_cases cs
  · exact ⟨[], by rw [hstem, List.append_nil]⟩
  · exact ⟨tail ++ rest, by rw [← List.append_assoc, ← hcs]⟩

theorem normaliseRaw_eq : ∀ t : RawText, normaliseRaw t = t.take (stem t.shape).length
  | .plain s => congrArg (fun cs => RawText.plain (String.ofList cs))
      (List.prefix_iff_eq_take.mp (stem_starts s.toList))
  | .broken _ => rfl

/-- Only the shapes decide whether what is left of a name is its beginning. -/
theorem normaliseRaw_append (h : stem (t ++ u).shape = t.shape) : normaliseRaw (t ++ u) = t := by
  rw [normaliseRaw_eq, h, RawText.take_eq, RawText.codes_append, RawText.length_shape,
    List.take_left, RawText.ofCodes_codes]

/-- The name of a template, with a hash and a suffix behind it. -/
theorem normaliseRaw_generated (hline : '\n' ∉ t.shape) (hh : IsWord h.toList)
    (hx : IsWord x.toList) : normaliseRaw (t ++ .plain ("-" ++ h ++ "-" ++ x)) = t := by
  apply normaliseRaw_append
  rw [RawText.shape_append, RawText.shape_plain]
  simpa using stem_append_hash hline hh hx

/-- A tail starts before the word that a name ends in. -/
theorem length_stem_append_word_le {u a : List Char} {i : Nat} (ha : IsWord a)
    (ht : TailAt startsSuffix (u ++ a) i) : (stem (u ++ a)).length ≤ u.length := by
  by_cases hh : HasHash (u ++ a)
  · obtain ⟨j, hj⟩ := hh
    obtain ⟨j, hj⟩ := exists_lastTailAt startsHashAndSuffix_needsDash hj
    have hlt := ((tailAt_append_word startsHashAndSuffix_needsDash ha).mp hj.1).1
    rw [stem_of_hash hj, List.length_take]
    omega
  · obtain ⟨j, hj⟩ := exists_lastTailAt startsSuffix_needsDash ht
    have hlt := ((tailAt_append_word startsSuffix_needsDash ha).mp hj.1).1
    rw [stem_of_suffix (not_exists.mp hh) hj, List.length_take]
    omega

/-- Where something is cut off whatever word follows, it does not matter which one does. -/
theorem normaliseRaw_append_word (hline : '\n' ∉ t.shape) (hcut : IsCut t.shape)
    (ha : IsWord a.toList) (hb : IsWord b.toList) :
    normaliseRaw (t ++ .plain a) = normaliseRaw (t ++ .plain b) := by
  obtain ⟨i, hi⟩ := tailAt_of_isCut hline hcut ha
  have hstem := stem_append_word ha hb hi
  have hle := length_stem_append_word_le ha hi
  rw [RawText.length_shape] at hle
  rw [normaliseRaw_eq, normaliseRaw_eq, RawText.shape_append, RawText.shape_append,
    RawText.shape_plain, RawText.shape_plain, ← hstem, RawText.take_eq, RawText.take_eq,
    RawText.codes_append, RawText.codes_append, List.take_append_of_le_length hle,
    List.take_append_of_le_length hle]

end Workload

end CeilingGate
