import CeilingGate.Proofs.Yaml.Cursor
import CeilingGate.Yaml.Token.Stream

/-! What stops the reading of tokens for good: an escape of a code that is too large, and nothing
else. -/
namespace CeilingGate.Yaml

open CeilingGate.Json (hexValue?)
open Cursor

variable {α β : Type} {c c' : Cursor} {cs : List Char} {s s' : Lexer} {P : Abort → Prop}

/-- A text begins with the letter and the digits of an escape whose code has more than 31 bits. -/
def HugeCode (cs : List Char) : Prop :=
  ∃ letter digits, escapeDigits? letter = some digits.length ∧
    (∀ d ∈ digits, (hexValue? d).isSome) ∧
    2 ^ (31 : Nat) ≤ Text.ofDigits 16 (digits.map fun d => (hexValue? d).getD 0) ∧
    letter :: digits <+: cs

/-- Such an escape stands somewhere in a text. -/
def HugeEscape (cs : List Char) : Prop := ∃ tail, HugeCode tail ∧ '\\' :: tail <:+ cs

/-- How the tokens of a text can stop for good. -/
def HugeEscape.Stops (cs : List Char) (a : Abort) : Prop := a = .hugeCode ∧ HugeEscape cs

/-- A reader moves on from a position. -/
def Moves (P : Abort → Prop) (c : Cursor) (x : Except Failure (α × Cursor)) : Prop :=
  Ends P (fun r => r.2.Follows c) x

theorem Moves.after {x : Except Failure (α × Cursor)} (h : Moves P c' x) (hc : c'.Follows c) :
    Moves P c x :=
  Ends.mono h (fun _ ha => ha) fun _ hv => hv.trans hc

theorem Moves.bind {x : Except Failure (α × Cursor)} {f : α × Cursor → Except Failure (β × Cursor)}
    (h : Moves P c x) (hf : ∀ r : α × Cursor, r.2.Follows c → Moves P r.2 (f r)) :
    Moves P c (x >>= f) :=
  Ends.bind h fun r hr => (hf r hr).after hr

theorem codeEscape_ends {letter : Char} {count : Nat} (h : escapeDigits? letter = some count)
    (hc : c.rest = letter :: c.next.rest) :
    Ends (fun a => a = .hugeCode ∧ HugeCode c.rest) (fun r => r.2.Follows c)
      (codeEscape count c.next) := by
  unfold codeEscape
  dsimp only
  split
  · next hd =>
    simp only [Bool.and_eq_true, beq_iff_eq, List.length_map, List.all_eq_true, List.mem_map,
      forall_exists_index, and_imp, forall_apply_eq_imp_iff₂] at hd
    unfold checkCode
    split
    · next hcode =>
      refine ⟨rfl, letter, c.next.rest.take count, by rw [hd.1]; exact h, hd.2, ?_, ?_⟩
      · simpa [List.map_map, Function.comp_def] using hcode
      · rw [hc]
        exact List.prefix_cons_inj letter |>.mpr (List.take_prefix _ _)
    · split
      · trivial
      · exact (skip_follows _ _).trans (next_follows c)
  · trivial

theorem quotedBreaks_moves (fuel : Nat) (c : Cursor) : Moves P c (quotedBreaks fuel c) := by
  induction fuel generalizing c with
  | zero => exact follows_refl c
  | succ fuel ih =>
    have hblank : (c.skipWhile fun ch => ch == ' ' || ch == '\t').Follows c := takeWhile_follows _ c
    unfold quotedBreaks
    split
    · trivial
    · dsimp only
      split
      · refine ((ih _).after ((lineBreak_follows _).trans hblank)).bind ?_
        intro r _
        exact follows_refl r.2
      · exact hblank

theorem quotedEscape_ends (c : Cursor) :
    Ends (fun a => a = .hugeCode ∧ HugeCode c.rest) (fun r => r.2.Follows c) (quotedEscape c) := by
  unfold quotedEscape
  dsimp only
  split
  · trivial
  · split
    · exact next_follows c
    · next count _ hcount =>
      have hrest : c.rest = c.peek :: c.next.rest := by
        apply rest_of_peek rfl
        intro he
        simp [he, endMark, escapeDigits?] at hcount
      exact (codeEscape_ends hcount hrest).bind fun _ h => h
    · split
      · exact ((quotedBreaks_moves _ _).after (lineBreak_follows c)).bind fun r _ => follows_refl r.2
      · trivial

theorem quotedWord_moves (double : Bool) (fuel : Nat) (hc : c.rest <:+ cs) :
    Moves (HugeEscape.Stops cs) c (quotedWord double fuel c) := by
  induction fuel generalizing c with
  | zero => exact follows_refl c
  | succ fuel ih =>
    unfold quotedWord
    generalize hp : (c.takeWhile fun ch => !stopsQuoted ch) = p
    have hpart : p.2.Follows c := by
      rw [← hp]
      exact takeWhile_follows _ c
    have hnext := (next_follows p.2).trans hpart
    obtain ⟨part, d⟩ := p
    dsimp only
    split
    · have hskip := (skip_follows 2 d).trans hpart
      exact ((ih (hskip.suffix hc)).after hskip).bind fun r _ => follows_refl r.2
    · split
      · exact ((ih (hnext.suffix hc)).after hnext).bind fun r _ => follows_refl r.2
      · split
        · next hslash =>
          have hd : d.rest = '\\' :: d.next.rest := by
            apply rest_of_peek
            · simp only [Bool.and_eq_true, beq_iff_eq] at hslash
              exact hslash.2
            · decide
          have hescape : Moves (HugeEscape.Stops cs) d.next (quotedEscape d.next) := by
            refine (quotedEscape_ends d.next).mono ?_ fun _ h => h
            rintro a ⟨ha, hcode⟩
            refine ⟨ha, d.next.rest, hcode, ?_⟩
            rw [← hd]
            exact hpart.suffix hc
          refine (hescape.after hnext).bind ?_
          intro r hr
          exact (ih (hr.suffix hc)).bind fun r _ => follows_refl r.2
        · exact hpart

theorem quotedSpace_moves (c : Cursor) : Moves P c (quotedSpace c) := by
  have hblank := takeWhile_follows (fun ch => ch == ' ' || ch == '\t') c
  unfold quotedSpace
  dsimp only
  split
  · trivial
  · split
    · refine ((quotedBreaks_moves _ _).after ((lineBreak_follows _).trans hblank)).bind ?_
      intro r _
      exact follows_refl r.2
    · exact hblank

theorem quotedRest_moves (double : Bool) (fuel : Nat) (hc : c.rest <:+ cs) :
    Moves (HugeEscape.Stops cs) c (quotedRest double fuel c) := by
  induction fuel generalizing c with
  | zero => trivial
  | succ fuel ih =>
    unfold quotedRest
    refine (quotedWord_moves double _ hc).bind ?_
    rintro ⟨word, d⟩ hd
    generalize (if double = true then '"' else '\'') = quote
    dsimp only
    split
    · exact next_follows d
    · refine (quotedSpace_moves d).bind ?_
      rintro ⟨space, e⟩ he
      exact (ih ((he.trans hd).suffix hc)).bind fun r _ => follows_refl r.2

theorem quotedScalar_moves (double : Bool) (hc : c.rest <:+ cs) :
    Moves (HugeEscape.Stops cs) c (quotedScalar double c) :=
  (quotedRest_moves double _ ((next_follows c).suffix hc)).after (next_follows c)

theorem ignoredLine_ends (c : Cursor) : Ends P (fun d => d.Follows c) (ignoredLine c) := by
  unfold ignoredLine
  generalize hd : (if c.skipSpaces.peek == '#' then c.skipSpaces.skipLine else c.skipSpaces) = d
  have hfollows : d.Follows c := by
    rw [← hd]
    split
    · exact (skipLine_follows _).trans (skipSpaces_follows c)
    · exact skipSpaces_follows c
  dsimp only
  rw [hd]
  split
  · exact (lineBreak_follows d).trans hfollows
  · trivial

theorem blockIndentation_follows (fuel widest : Nat) (c : Cursor) :
    (blockIndentation fuel widest c).2.2.Follows c := by
  induction fuel generalizing widest c with
  | zero => exact follows_refl c
  | succ fuel ih =>
    unfold blockIndentation
    dsimp only
    split
    · exact (ih _ _).trans (next_follows c)
    · split
      · exact (ih _ _).trans (lineBreak_follows c)
      · exact follows_refl c

theorem blockBreaks_follows (indent fuel : Nat) (c : Cursor) :
    (blockBreaks indent fuel c).2.Follows c := by
  induction fuel generalizing c with
  | zero => exact follows_refl c
  | succ fuel ih =>
    have hskip : (skipIndent indent c).Follows c := skip_follows _ c
    unfold blockBreaks
    dsimp only
    split
    · exact (ih _).trans ((lineBreak_follows _).trans hskip)
    · exact hskip

theorem blockLines_follows (folded : Bool) (chomping : Chomping) (indent fuel : Nat) (c : Cursor) :
    (blockLines folded chomping indent fuel c).2.Follows c := by
  induction fuel generalizing c with
  | zero => exact follows_refl c
  | succ fuel ih =>
    have hline := takeWhile_follows (fun ch => !isBreakOrEnd ch) c
    have hbreaks := (blockBreaks_follows indent
      ((c.takeWhile fun ch => !isBreakOrEnd ch).2.lineBreak.2.rest.length + 1)
      (c.takeWhile fun ch => !isBreakOrEnd ch).2.lineBreak.2).trans
        ((lineBreak_follows _).trans hline)
    unfold blockLines
    dsimp only
    split
    · exact (ih _).trans hbreaks
    · exact hbreaks

theorem blockIndicators_follows (c : Cursor) : (blockIndicators c).2.2.Follows c := by
  unfold blockIndicators
  split
  · split
    · exact skip_follows 2 c
    · exact next_follows c
  · split
    · exact skip_follows 2 c
    · exact next_follows c
  · exact follows_refl c

theorem blockStart_follows (least : Nat) (increment : Option Nat) (c : Cursor) :
    (blockStart least increment c).2.2.Follows c := by
  unfold blockStart
  cases increment with
  | some n => exact blockBreaks_follows _ _ c
  | none => exact blockIndentation_follows _ _ c

theorem blockScalar_moves (folded : Bool) (parent : Int) (c : Cursor) :
    Moves P c (blockScalar folded parent c) := by
  have hhead := (blockIndicators_follows c.next).trans (next_follows c)
  unfold blockScalar
  generalize blockIndicators c.next = head at hhead ⊢
  obtain ⟨chomping, increment, d⟩ := head
  dsimp only
  split
  · trivial
  · refine Ends.bind ((ignoredLine_ends d).mono (fun _ h => h) fun _ h => h.trans hhead) ?_
    intro e he
    have hstart := (blockStart_follows (max (parent + 1) 1).toNat increment e).trans he
    generalize blockStart (max (parent + 1) 1).toNat increment e = start at hstart ⊢
    obtain ⟨leading, indent, first⟩ := start
    dsimp only
    split
    · have hlines := blockLines_follows folded chomping indent (first.rest.length + 1) first
      simp only [ends_pure]
      exact hlines.trans hstart
    · exact hstart

theorem propertyName_moves (c : Cursor) : Moves P c (propertyName c) := by
  unfold propertyName
  dsimp only
  split
  · trivial
  · exact (takeWhile_follows _ _).trans (next_follows c)

theorem percentBytes_moves (fuel : Nat) (c : Cursor) : Moves P c (percentBytes fuel c) := by
  induction fuel generalizing c with
  | zero => exact follows_refl c
  | succ fuel ih =>
    unfold percentBytes
    split
    · split
      · exact ((ih _).after (skip_follows 3 c)).bind fun r _ => follows_refl r.2
      · trivial
    · exact follows_refl c

theorem uriParts_moves (fuel : Nat) (c : Cursor) : Moves P c (uriParts fuel c) := by
  induction fuel generalizing c with
  | zero => exact follows_refl c
  | succ fuel ih =>
    have hpart := takeWhile_follows (fun ch => isUriChar ch && ch != '%') c
    unfold uriParts
    dsimp only
    split
    · refine ((percentBytes_moves _ _).after hpart).bind ?_
      rintro ⟨bytes, d⟩ hd
      dsimp only
      split
      · exact (ih _).bind fun r _ => follows_refl r.2
      · trivial
    · exact hpart

theorem tagUri_moves (c : Cursor) : Moves P c (tagUri c) := by
  unfold tagUri
  split
  · trivial
  · exact (uriParts_moves _ c).bind fun r _ => follows_refl r.2

theorem tagHandle_moves (c : Cursor) : Moves P c (tagHandle c) := by
  unfold tagHandle
  split
  · trivial
  · split
    · exact next_follows c
    · dsimp only
      split
      · exact (next_follows _).trans ((takeWhile_follows _ _).trans (next_follows c))
      · trivial

theorem verbatimTag_moves (c : Cursor) : Moves P c (verbatimTag c) := by
  refine ((tagUri_moves _).after (skip_follows 2 c)).bind ?_
  rintro ⟨uri, d⟩ _
  dsimp only
  split
  · trivial
  · exact next_follows d

theorem suffixHandle_moves (c : Cursor) : Moves P c (suffixHandle c) := by
  unfold suffixHandle
  split
  · exact tagHandle_moves c
  · exact next_follows c

theorem suffixTag_moves (c : Cursor) : Moves P c (suffixTag c) := by
  refine (suffixHandle_moves c).bind ?_
  intro r _
  exact (tagUri_moves r.2).bind fun r _ => follows_refl r.2

theorem tagForm_moves (c : Cursor) : Moves P c (tagForm c) := by
  unfold tagForm
  split
  · exact verbatimTag_moves c
  · split
    · exact next_follows c
    · exact suffixTag_moves c

theorem tag_moves (c : Cursor) : Moves P c (tag c) := by
  refine (tagForm_moves c).bind ?_
  rintro ⟨token, d⟩ _
  dsimp only
  split
  · trivial
  · exact follows_refl d

theorem versionNumber_moves (c : Cursor) : Moves P c (versionNumber c) := by
  unfold versionNumber
  dsimp only
  split
  · trivial
  · split
    · trivial
    · exact takeWhile_follows _ c

theorem versionDirective_moves (c : Cursor) : Moves P c (versionDirective c) := by
  refine ((versionNumber_moves _).after (skipSpaces_follows c)).bind ?_
  rintro ⟨major, d⟩ _
  dsimp only
  split
  · trivial
  · refine ((versionNumber_moves _).after (next_follows d)).bind ?_
    rintro ⟨minor, e⟩ _
    dsimp only
    split
    · trivial
    · exact follows_refl e

theorem handleDirective_moves (c : Cursor) : Moves P c (handleDirective c) := by
  refine ((tagHandle_moves _).after (skipSpaces_follows c)).bind ?_
  rintro ⟨name, d⟩ _
  dsimp only
  split
  · trivial
  · refine ((tagUri_moves _).after (skipSpaces_follows d)).bind ?_
    rintro ⟨uri, e⟩ _
    dsimp only
    split
    · trivial
    · exact follows_refl e

theorem namedDirective_moves (name : List Char) (c : Cursor) :
    Moves P c (namedDirective name c) := by
  unfold namedDirective
  split
  · exact versionDirective_moves c
  · split
    · exact handleDirective_moves c
    · exact skipLine_follows c

theorem directive_moves (c : Cursor) : Moves P c (directive c) := by
  have hname := (takeWhile_follows isWordChar c.next).trans (next_follows c)
  unfold directive
  dsimp only
  split
  · trivial
  · refine ((namedDirective_moves _ _).after hname).bind ?_
    rintro ⟨d, e⟩ _
    exact (ignoredLine_ends e).bind fun _ h => h

end CeilingGate.Yaml
