import Mathlib.Algebra.Group.Nat.Defs
import Mathlib.Tactic.Common

/-!
# Hashing Texts in Pieces

A hash that takes a text one character at a time, over an arbitrary state and
an arbitrary alphabet. A text may be handed over in pieces, and the state in
the end is that of the text they make up, wherever it was cut.

Several texts hashed as one are told apart by a separator when the first of
them does not contain it. Nothing is asked of what comes after the separator.
The condition is needed: a separator in the first text can be taken for the one
at its end.

FNV-1a takes a byte into its state by an exclusive or and a multiplication
modulo a power of two.

## Main definitions

* `Hasher`: The state a hash starts in, and how it takes a character.
* `Hasher.write`, `Hasher.hash`: A piece of a text, and a whole one.
* `Hasher.fnv1a`: FNV-1a, for a width, an offset and a prime.

## Theorems

* `Hasher.write_pieces`: Where a text is cut does not matter.
* `Hasher.write_simulates`: One hash follows another one.
* `append_separator_iff`: A separator tells the texts apart.
-/

/-- A hash that takes one character at a time. -/
structure Hasher (σ β : Type) where
  start : σ
  step : σ → β → σ

namespace Hasher

variable {σ τ β : Type} (h : Hasher σ β)

/-- The state after a piece of the text. -/
def write (s : σ) (piece : List β) : σ := piece.foldl h.step s

/-- The state after the text. -/
def hash (text : List β) : σ := h.write h.start text

theorem write_append (s : σ) (a b : List β) : h.write s (a ++ b) = h.write (h.write s a) b :=
  List.foldl_append

/-- Where a text is cut does not matter. -/
theorem write_pieces (s : σ) (pieces : List (List β)) :
    pieces.foldl h.write s = h.write s pieces.flatten := by
  induction pieces generalizing s with
  | nil => rfl
  | cons piece pieces ih => rw [List.foldl_cons, ih, List.flatten_cons, write_append]

/-- One hash follows another one when it does for every character. -/
theorem write_simulates (k : Hasher τ β) (f : σ → τ)
    (hstep : ∀ s c, f (h.step s c) = k.step (f s) c) (s : σ) (piece : List β) :
    f (h.write s piece) = k.write (f s) piece := by
  induction piece generalizing s with
  | nil => rfl
  | cons c piece ih =>
      have hrest := ih (h.step s c)
      rw [hstep] at hrest
      exact hrest

/-- FNV-1a. The exclusive or comes first, then the multiplication. -/
def fnv1a (width offset prime : Nat) : Hasher Nat UInt8 where
  start := offset
  step s b := (s ^^^ b.toNat) * prime % 2 ^ width

end Hasher

/-! ## Separators -/

variable {β : Type}

/-- A separator tells two texts apart, if the first one does not contain it. -/
theorem append_separator_iff (sep : β) (a b x y : List β) (ha : sep ∉ a) (hb : sep ∉ b) :
    a ++ sep :: x = b ++ sep :: y ↔ a = b ∧ x = y := by
  constructor
  · intro h
    induction a generalizing b with
    | nil =>
        cases b with
        | nil => exact ⟨rfl, (List.cons.inj h).2⟩
        | cons d b => exact absurd (List.mem_cons.mpr (.inl (List.cons.inj h).1)) hb
    | cons c a ih =>
        cases b with
        | nil => exact absurd (List.mem_cons.mpr (.inl (List.cons.inj h).1.symm)) ha
        | cons d b =>
            rcases List.cons.inj h with ⟨rfl, hrest⟩
            rcases ih b (List.not_mem_of_not_mem_cons ha) (List.not_mem_of_not_mem_cons hb) hrest
              with ⟨rfl, rfl⟩
            exact ⟨rfl, rfl⟩
  · rintro ⟨rfl, rfl⟩
    rfl

/-- A separator in the first text can be taken for the one at its end. -/
theorem append_separator_shift (sep : β) (a b x : List β) :
    (a ++ sep :: b) ++ sep :: x = a ++ sep :: (b ++ sep :: x) := by
  rw [List.append_assoc, List.cons_append]
