import CeilingGate.Proofs.Yaml.Ends
import CeilingGate.Yaml.Token.Scalar

/-! Readers of tokens only move on in the text, and a text stops them for good only by an escape of a
code that is too large. -/
namespace CeilingGate.Yaml

variable {c c' d : Cursor} {cs : List Char}

/-- What lies ahead of `c'` also lies ahead of `c`. -/
def Cursor.Follows (c' c : Cursor) : Prop := c'.rest <:+ c.rest

namespace Cursor

theorem follows_refl (c : Cursor) : c.Follows c := List.suffix_refl _

theorem Follows.trans (h : d.Follows c') (h' : c'.Follows c) : d.Follows c :=
  List.IsSuffix.trans h h'

theorem Follows.suffix (h : c'.Follows c) (hc : c.rest <:+ cs) : c'.rest <:+ cs :=
  List.IsSuffix.trans h hc

theorem next_rest (c : Cursor) : c.next.rest = c.rest.tail := by
  unfold next
  split
  · next h => simp [h]
  · next h => split <;> simp [h]

theorem next_follows (c : Cursor) : c.next.Follows c := by
  rw [Follows, next_rest]
  exact List.tail_suffix _

theorem skip_follows (n : Nat) (c : Cursor) : (c.skip n).Follows c := by
  induction n generalizing c with
  | zero => exact follows_refl c
  | succ n ih => exact (ih c.next).trans (next_follows c)

theorem takeWhile_follows (p : Char → Bool) (c : Cursor) : (c.takeWhile p).2.Follows c :=
  skip_follows _ c

theorem skipSpaces_follows (c : Cursor) : c.skipSpaces.Follows c := takeWhile_follows _ c

theorem skipLine_follows (c : Cursor) : c.skipLine.Follows c := takeWhile_follows _ c

theorem lineBreak_follows (c : Cursor) : c.lineBreak.2.Follows c := by
  unfold lineBreak
  split
  · exact skip_follows 2 c
  · split
    · exact next_follows c
    · split
      · exact next_follows c
      · exact follows_refl c
  · exact follows_refl c

/-- A position that shows a character of the text stands before it. -/
theorem rest_of_peek {ch : Char} (h : c.peek = ch) (hne : ch ≠ endMark) :
    c.rest = ch :: c.next.rest := by
  rw [next_rest]
  unfold peek at h
  cases hr : c.rest with
  | nil => exact (hne (by simpa [hr] using h.symm)).elim
  | cons a rest => simpa [hr] using h

end Cursor

open Cursor

theorem plainBreaks_follows (fuel : Nat) (c : Cursor) : (plainBreaks fuel c).2.Follows c := by
  induction fuel generalizing c with
  | zero => exact follows_refl c
  | succ fuel ih =>
    unfold plainBreaks
    split
    · exact (ih c.next).trans (next_follows c)
    · split
      · dsimp only
        split
        · exact lineBreak_follows c
        · exact (ih _).trans (lineBreak_follows c)
      · exact follows_refl c

theorem plainSpace_follows (c : Cursor) : (plainSpace c).2.1.Follows c := by
  have hblank := takeWhile_follows (· == ' ') c
  unfold plainSpace
  dsimp only
  split
  · have hbreak := (lineBreak_follows (c.takeWhile (· == ' ')).2).trans hblank
    split
    · exact hbreak
    · have hmore := plainBreaks_follows
        ((c.takeWhile (· == ' ')).2.lineBreak.2.rest.length + 1)
        (c.takeWhile (· == ' ')).2.lineBreak.2
      split
      · next h =>
        rw [h] at hmore
        exact hmore.trans hbreak
      · next h =>
        rw [h] at hmore
        exact hmore.trans hbreak
  · exact hblank

theorem plainParts_follows (inFlow : Bool) (indent : Int) (fuel : Nat) (space : List Char)
    (c : Cursor) : (plainParts inFlow indent fuel space c).2.1.Follows c := by
  induction fuel generalizing space c with
  | zero => exact follows_refl c
  | succ fuel ih =>
    have hspace := (plainSpace_follows (c.skip (plainLength inFlow c.rest))).trans (skip_follows _ c)
    unfold plainParts
    dsimp only
    split
    · exact hspace
    · exact (ih _ _).trans hspace

theorem plainScalar_follows (inFlow : Bool) (indent : Int) (c : Cursor) :
    (plainScalar inFlow indent c).2.1.Follows c := plainParts_follows _ _ _ _ c

end CeilingGate.Yaml
