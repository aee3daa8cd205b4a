import Mathlib.Algebra.Ring.Divisibility.Basic
import Mathlib.Data.Int.Order.Basic
import Mathlib.Tactic.Ring

/-!
# Capped Doubling

A delay that doubles with each attempt up to a cap, and its computation in a
machine word. The doubling is a shift, which wraps around; a result that is not
positive or is above the cap is replaced by the cap.

A wrapped result could as well be small and positive. It is a multiple of the
power of two it was shifted by, though, so it is above the cap where the cap is
below that power. This is so for every shift that wraps, as soon as it is for
the least one that does (`clamped_eq`).

## Main definitions

* `Backoff.base`: The capped doubling.
* `Backoff.clamped`: Its computation in a word.

## Theorems

* `Backoff.base_le`, `Backoff.base_pos`, `Backoff.base_mono`: Bounds and order.
* `Backoff.shiftLeft_dvd`: A shifted word is a multiple of a power of two.
* `Backoff.clamped_eq`: The computation is exact.
-/

namespace Backoff

/-- The `n`-th delay. -/
def base (initial cap n : Nat) : Nat := min (initial * 2 ^ n) cap

variable (initial cap n : Nat)

theorem base_le : base initial cap n ≤ cap := min_le_right _ _

theorem base_pos (hinitial : 0 < initial) (hcap : 0 < cap) : 0 < base initial cap n :=
  lt_min (Nat.mul_pos hinitial (Nat.two_pow_pos n)) hcap

theorem base_mono : Monotone (base initial cap) := by
  intro m n hmn
  have hdoubled : initial * 2 ^ m ≤ initial * 2 ^ n :=
    Nat.mul_le_mul_left initial (Nat.pow_le_pow_right Nat.two_pos hmn)
  exact min_le_min hdoubled (le_refl cap)

/-! ## In a machine word -/

/-- The delay as it is computed in a word of `w` bits. -/
def clamped {w : Nat} (initial : BitVec w) (cap : Int) (n : Nat) : Int :=
  let base := (initial <<< n).toInt
  if base > cap ∨ base ≤ 0 then cap else base

/-- A shifted word is a multiple of the power of two it was shifted by, as far
    as the word is long. -/
theorem shiftLeft_dvd {w : Nat} (x : BitVec w) (n m : Nat) (hn : m ≤ n) (hw : m ≤ w) :
    (2 : Int) ^ m ∣ (x <<< n).toInt := by
  have hshift : (2 : Int) ^ m ∣ ((x.toNat * 2 ^ n : Nat) : Int) := by
    have hdvd : 2 ^ m ∣ x.toNat * 2 ^ n := Dvd.dvd.mul_left (pow_dvd_pow 2 hn) _
    exact_mod_cast hdvd
  have hword : (2 : Int) ^ m ∣ ((2 ^ w : Nat) : Int) := by
    exact_mod_cast pow_dvd_pow 2 hw
  have hwrap : ((2 ^ w : Nat) : Int) ∣
      ((x.toNat * 2 ^ n : Nat) : Int) - Int.bmod ((x.toNat * 2 ^ n : Nat) : Int) (2 ^ w) :=
    Int.dvd_self_sub_bmod
  rw [BitVec.toInt_shiftLeft, Nat.shiftLeft_eq]
  exact (dvd_sub_right hshift).mp (hword.trans hwrap)

/-- A shift that does not reach the sign does not wrap. -/
theorem shiftLeft_of_lt {w : Nat} (x : BitVec w) (n : Nat) (h : 2 * (x.toNat * 2 ^ n) < 2 ^ w) :
    (x <<< n).toInt = ((x.toNat * 2 ^ n : Nat) : Int) := by
  rw [BitVec.toInt_shiftLeft, Nat.shiftLeft_eq]
  refine Int.bmod_eq_of_le_mul_two ?_ ?_
  · omega
  · rw [mul_comm]
    exact_mod_cast h

/-- The computation is exact, provided the cap is below the power of two of
    every shift that wraps. -/
theorem clamped_eq {w : Nat} (x : BitVec w) (cap m n : Nat) (hx : 0 < x.toNat) (hw : m ≤ w)
    (hcap : cap < 2 ^ m) (hwraps : 2 ^ w ≤ 2 * (x.toNat * 2 ^ n) → m ≤ n) :
    clamped x cap n = base x.toNat cap n := by
  by_cases hfits : 2 * (x.toNat * 2 ^ n) < 2 ^ w
  · have hpos : 0 < x.toNat * 2 ^ n := Nat.mul_pos hx (Nat.two_pow_pos n)
    simp only [clamped, shiftLeft_of_lt x n hfits, base]
    by_cases hover : cap < x.toNat * 2 ^ n
    · rw [if_pos (.inl (by exact_mod_cast hover)), min_eq_right hover.le]
    · rw [if_neg (by omega), min_eq_left (Nat.le_of_not_lt hover)]
  · -- A wrapped result is a multiple of a power above the cap, so it is not
    -- positive or above the cap itself.
    have hmn : m ≤ n := hwraps (Nat.le_of_not_lt hfits)
    have hreplaced : (x <<< n).toInt > cap ∨ (x <<< n).toInt ≤ 0 := by
      rcases lt_or_ge 0 (x <<< n).toInt with hpos | hneg
      · have hle := Int.le_of_dvd hpos (shiftLeft_dvd x n m hmn hw)
        have hcap' : (cap : Int) < 2 ^ m := by exact_mod_cast hcap
        exact .inl (hcap'.trans_le hle)
      · exact .inr hneg
    have hlarge : cap ≤ x.toNat * 2 ^ n := by
      have hpow : 2 ^ m ≤ 2 ^ n := Nat.pow_le_pow_right Nat.two_pos hmn
      have hmul : 2 ^ n ≤ x.toNat * 2 ^ n := Nat.le_mul_of_pos_left _ hx
      omega
    simp only [clamped, if_pos hreplaced, base, min_eq_right hlarge]

end Backoff
