import CeilingGate.Proofs.Yaml.Scan

/-! The tokens of a whole text are cut short for good only by an escape of a code that is too large. -/
namespace CeilingGate.Yaml

open Cursor

variable {c : Cursor} {cs : List Char} {s : Lexer} {P : Abort → Prop} {a : Abort}

namespace Lexer

/-- A step of the lexer moves on from a position. -/
def Advances (P : Abort → Prop) (c : Cursor) (x : Except Failure Lexer) : Prop :=
  Ends P (fun s => s.cursor.Follows c) x

/-- A step of the lexer stays at a position. -/
def Stays (P : Abort → Prop) (c : Cursor) (x : Except Failure Lexer) : Prop :=
  Ends P (fun s => s.cursor = c) x

theorem Stays.bind {x : Except Failure Lexer} {f : Lexer → Except Failure Lexer}
    (h : Stays P c x) (hf : ∀ s, s.cursor = c → Advances P c (f s)) : Advances P c (x >>= f) :=
  Ends.bind h hf

theorem skipToToken_follows (fuel : Nat) (s : Lexer) :
    (skipToToken fuel s).cursor.Follows s.cursor := by
  induction fuel generalizing s with
  | zero => exact follows_refl _
  | succ fuel ih =>
    unfold skipToToken
    generalize hc : (if s.cursor.skipSpaces.peek == '#' then s.cursor.skipSpaces.skipLine
      else s.cursor.skipSpaces) = c
    have hfollows : c.Follows s.cursor := by
      rw [← hc]
      split
      · exact (skipLine_follows _).trans (skipSpaces_follows _)
      · exact skipSpaces_follows _
    dsimp only
    rw [hc]
    split
    · exact (ih _).trans ((lineBreak_follows c).trans hfollows)
    · exact hfollows

theorem dropStale_stays (h : s.cursor = c) : Stays P c s.dropStale := by
  unfold dropStale
  split
  · trivial
  · exact h

theorem dropKeyStart_stays (h : s.cursor = c) : Stays P c s.dropKeyStart := by
  unfold dropKeyStart
  split
  · trivial
  · exact h

theorem saveKeyStart_stays (h : s.cursor = c) : Stays P c s.saveKeyStart := by
  unfold saveKeyStart
  split
  · exact Ends.bind (dropKeyStart_stays h) fun _ hs => hs
  · exact h

@[simp] theorem unwind_cursor (s : Lexer) (column : Int) : (s.unwind column).cursor = s.cursor := by
  unfold unwind
  split <;> rfl

@[simp] theorem openBlock_cursor (s : Lexer) (column position : Nat) (t : Token) :
    (s.openBlock column position t).cursor = s.cursor := by
  unfold openBlock
  split <;> rfl

@[simp] theorem openHere_cursor (s : Lexer) (t : Token) : (s.openHere t).cursor = s.cursor := by
  unfold openHere
  split
  · rfl
  · exact openBlock_cursor _ _ _ _

/-- A token of `n` characters. -/
theorem emit_follows (h : s.cursor = c) (n : Nat) (t : Token) : (s.emit n t).cursor.Follows c := by
  rw [← h]
  exact skip_follows n s.cursor

theorem streamEnd_advances (s : Lexer) : Advances P s.cursor s.streamEnd := by
  refine (dropKeyStart_stays (unwind_cursor s (-1))).bind ?_
  intro s' hs
  rw [← hs]
  exact follows_refl s'.cursor

theorem directive_advances (s : Lexer) : Advances P s.cursor s.directive := by
  refine (dropKeyStart_stays (unwind_cursor s (-1))).bind ?_
  intro s' hs
  rw [← hs]
  exact Ends.bind (directive_moves s'.cursor) fun _ h => h

theorem documentMarker_advances (s : Lexer) (t : Token) :
    Advances P s.cursor (s.documentMarker t) := by
  refine (dropKeyStart_stays (unwind_cursor s (-1))).bind ?_
  intro s' hs
  exact emit_follows hs 3 t

theorem flowStart_advances (s : Lexer) (t : Token) : Advances P s.cursor (s.flowStart t) := by
  refine (saveKeyStart_stays rfl).bind ?_
  intro s' hs
  exact emit_follows hs 1 t

theorem flowEnd_advances (s : Lexer) (t : Token) : Advances P s.cursor (s.flowEnd t) := by
  refine (dropKeyStart_stays rfl).bind ?_
  intro s' hs
  exact emit_follows hs 1 t

theorem flowEntry_advances (s : Lexer) : Advances P s.cursor s.flowEntry := by
  refine (dropKeyStart_stays rfl).bind ?_
  intro s' hs
  exact emit_follows hs 1 .flowEntry

theorem blockEntry_advances (s : Lexer) : Advances P s.cursor s.blockEntry := by
  unfold blockEntry
  dsimp only
  split
  · trivial
  · refine (dropKeyStart_stays (openHere_cursor s _)).bind ?_
    intro s' hs
    exact emit_follows hs 1 .blockEntry

theorem explicitKey_advances (s : Lexer) : Advances P s.cursor s.explicitKey := by
  unfold explicitKey
  dsimp only
  split
  · trivial
  · refine (dropKeyStart_stays (openHere_cursor s _)).bind ?_
    intro s' hs
    exact emit_follows hs 1 .key

theorem value_advances (s : Lexer) : Advances P s.cursor s.value := by
  unfold value
  dsimp only
  split
  · split
    · exact emit_follows rfl 1 .value
    · exact emit_follows (openBlock_cursor _ _ _ _) 1 .value
  · split
    · trivial
    · refine (dropKeyStart_stays (openHere_cursor s _)).bind ?_
      intro s' hs
      exact emit_follows hs 1 .value

theorem property_advances {read : Cursor → Except Failure (Token × Cursor)} (s : Lexer)
    (h : Moves P s.cursor (read s.cursor)) : Advances P s.cursor (s.property read) := by
  refine (saveKeyStart_stays rfl).bind ?_
  intro s' hs
  rw [← hs] at h ⊢
  exact Ends.bind h fun _ h => h

theorem blockScalar_advances (s : Lexer) (folded : Bool) :
    Advances P s.cursor (s.blockScalar folded) := by
  refine (dropKeyStart_stays rfl).bind ?_
  intro s' hs
  rw [← hs]
  exact Ends.bind (blockScalar_moves folded s'.indent s'.cursor) fun _ h => h

theorem plain_advances (s : Lexer) : Advances P s.cursor s.plain := by
  refine (saveKeyStart_stays rfl).bind ?_
  intro s' hs
  rw [← hs]
  exact plainScalar_follows s'.inFlow s'.indent s'.cursor

theorem named_moves (t : String → Token) (c : Cursor) : Moves P c (named t c) :=
  (propertyName_moves c).bind fun r _ => follows_refl r.2

theorem quoted_moves (double : Bool) (h : c.rest <:+ cs) :
    Moves (HugeEscape.Stops cs) c (quoted double c) :=
  (quotedScalar_moves double h).bind fun r _ => follows_refl r.2

theorem scan_advances (h : s.cursor.rest <:+ cs) :
    Advances (HugeEscape.Stops cs) s.cursor s.scan := by
  refine Ends.ite (fun _ => streamEnd_advances s) fun _ => ?_
  refine Ends.ite (fun _ => directive_advances s) fun _ => ?_
  refine Ends.ite (fun _ => documentMarker_advances s _) fun _ => ?_
  refine Ends.ite (fun _ => documentMarker_advances s _) fun _ => ?_
  refine Ends.ite (fun _ => flowStart_advances s _) fun _ => ?_
  refine Ends.ite (fun _ => flowStart_advances s _) fun _ => ?_
  refine Ends.ite (fun _ => flowEnd_advances s _) fun _ => ?_
  refine Ends.ite (fun _ => flowEnd_advances s _) fun _ => ?_
  refine Ends.ite (fun _ => flowEntry_advances s) fun _ => ?_
  refine Ends.ite (fun _ => blockEntry_advances s) fun _ => ?_
  refine Ends.ite (fun _ => explicitKey_advances s) fun _ => ?_
  refine Ends.ite (fun _ => value_advances s) fun _ => ?_
  refine Ends.ite (fun _ => property_advances s (named_moves _ _)) fun _ => ?_
  refine Ends.ite (fun _ => property_advances s (named_moves _ _)) fun _ => ?_
  refine Ends.ite (fun _ => property_advances s (tag_moves _)) fun _ => ?_
  refine Ends.ite (fun _ => blockScalar_advances s false) fun _ => ?_
  refine Ends.ite (fun _ => blockScalar_advances s true) fun _ => ?_
  refine Ends.ite (fun _ => property_advances s (quoted_moves _ h)) fun _ => ?_
  exact Ends.ite (fun _ => plain_advances s) fun _ => ends_malformed

theorem step_advances (h : s.cursor.rest <:+ cs) :
    Advances (HugeEscape.Stops cs) s.cursor s.step := by
  have hskip := skipToToken_follows (s.cursor.rest.length + 1) s
  refine Ends.bind (dropStale_stays rfl) ?_
  intro s' hs
  have hc : (s'.unwind s'.cursor.column).cursor = s'.cursor := unwind_cursor s' _
  rw [← hs, ← hc] at hskip
  refine Ends.bind (scan_advances (hskip.suffix h)) ?_
  intro s'' hscan
  refine (dropStale_stays rfl).mono (fun _ ha => ha) fun s₃ hs₃ => ?_
  rw [hs₃]
  exact hscan.trans hskip

theorem run_succ (fuel : Nat) (s : Lexer) : run (fuel + 1) s =
    match s.step with
    | .error f => (s, some f)
    | .ok s => if s.tokens.back? == some .streamEnd then (s, none) else run fuel s := by
  rfl

/-- The run of the lexer: each step moves on, so what stops one of them stands in the text. -/
theorem run_stops (fuel : Nat) (h : s.cursor.rest <:+ cs) (ha : (run fuel s).2 = some (.abort a)) :
    HugeEscape.Stops cs a := by
  induction fuel generalizing s with
  | zero =>
    have hnone : some Failure.malformed = some (.abort a) := ha
    cases hnone
  | succ fuel ih =>
    have hstep := step_advances h
    rw [run_succ] at ha
    cases hs : s.step with
    | error f =>
      rw [hs] at ha hstep
      cases Option.some.inj ha
      exact hstep
    | ok s' =>
      rw [hs] at ha hstep
      dsimp only at ha
      split at ha
      · cases ha
      · exact ih (Cursor.Follows.suffix hstep h) ha

end Lexer

theorem start_suffix (cs : List Char) : (Cursor.start cs).rest <:+ cs := by
  unfold Cursor.start
  split
  · exact List.suffix_cons _ _
  · exact List.suffix_refl cs

theorem tokens_stops (h : (tokens cs).2 = some (.abort a)) : HugeEscape.Stops cs a :=
  Lexer.run_stops (s := .start cs) (cs.length + 2) (start_suffix cs) h

end CeilingGate.Yaml
