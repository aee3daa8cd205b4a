import Mathlib.Algebra.BigOperators.Group.List.Basic
import Mathlib.Algebra.GroupWithZero.Nat
import Mathlib.Order.Interval.Finset.Nat

/-!
# Shares of a Range

A list of shares cuts the numbers below its sum into consecutive intervals,
one for each position: the interval of a position begins where those of the
earlier positions end. Walking the list with a running total and stopping at
the first total above a number finds the position whose interval the number is
in. Weighted choice, percentage rollouts and cumulative tables all do this.

The intervals follow from one fact, `pick_eq_some_iff`; that the parts have the
right sizes, that nothing below the sum is left out and that growing one share
moves nothing in front of it are read off it.

## Main definitions

* `Shares.before`: Where the interval of a position begins.
* `Shares.pick`: The position whose interval a number is in.

## Theorems

* `Shares.pick_eq_some_iff`: The numbers of a position are an interval.
* `Shares.exists_pick`: Every number below the sum has a position.
* `Shares.card_pick`: A position has as many numbers as its share.
* `Shares.pick_grow`: Growing a share moves nothing that was before its end.
-/

namespace Shares

/-- The sum of the shares in front of a position. -/
def before (shares : List Nat) (i : Nat) : Nat := (shares.take i).sum

/-- The position whose interval a number is in, counting the number down by
    the shares that are passed. -/
def pick : List Nat → Nat → Option Nat
  | [], _ => none
  | w :: ws, n => if n < w then some 0 else (pick ws (n - w)).map (· + 1)

@[simp]
theorem before_zero (shares : List Nat) : before shares 0 = 0 := by
  simp [before]

@[simp]
theorem before_cons_succ (w : Nat) (ws : List Nat) (i : Nat) :
    before (w :: ws) (i + 1) = w + before ws i := by
  simp [before]

theorem before_succ (shares : List Nat) (i : Nat) (hi : i < shares.length) :
    before shares (i + 1) = before shares i + shares[i] := by
  rw [before, before, List.take_succ_eq_append_getElem hi, List.sum_append,
    List.sum_singleton]

theorem before_length (shares : List Nat) : before shares shares.length = shares.sum := by
  simp [before]

theorem before_mono (shares : List Nat) (i j : Nat) (hij : i ≤ j) :
    before shares i ≤ before shares j := by
  induction shares generalizing i j with
  | nil => simp [before]
  | cons w ws ih =>
      cases i with
      | zero => simp
      | succ i =>
          cases j with
          | zero => omega
          | succ j =>
              have h := ih i j (by omega)
              simp only [before_cons_succ]
              omega

/-- No interval reaches past the sum of the shares. -/
theorem before_le_sum (shares : List Nat) (i : Nat) (hi : i ≤ shares.length) :
    before shares i ≤ shares.sum := by
  rw [← before_length shares]
  exact before_mono shares i shares.length hi

/-- The numbers of a position are those from where its interval begins up to
    where the next one does. -/
theorem pick_eq_some_iff (shares : List Nat) (n i : Nat) :
    pick shares n = some i ↔
      i < shares.length ∧ before shares i ≤ n ∧ n < before shares (i + 1) := by
  induction shares generalizing n i with
  | nil => simp [pick]
  | cons w ws ih =>
      rw [pick]
      by_cases hlt : n < w
      · rw [if_pos hlt]
        cases i with
        | zero => simp [before_cons_succ, hlt]
        | succ i =>
            -- A number inside the first share is in front of every later interval.
            simp only [Option.some.injEq, before_cons_succ]
            omega
      · rw [if_neg hlt]
        cases i with
        | zero =>
            simp only [Option.map_eq_some_iff, before_cons_succ, before_zero]
            constructor
            · rintro ⟨j, _, hj⟩
              omega
            · intro h
              omega
        | succ i =>
            simp only [Option.map_eq_some_iff, Nat.add_right_cancel_iff, exists_eq_right, ih,
              before_cons_succ, List.length_cons]
            omega

/-- Every number below the sum has a position. -/
theorem exists_pick (shares : List Nat) (n : Nat) (hn : n < shares.sum) :
    ∃ i, i < shares.length ∧ pick shares n = some i := by
  induction shares generalizing n with
  | nil => simp at hn
  | cons w ws ih =>
      by_cases hlt : n < w
      · exact ⟨0, by simp, by rw [pick, if_pos hlt]⟩
      · rw [List.sum_cons] at hn
        rcases ih (n - w) (by omega) with ⟨i, hi, hpick⟩
        exact ⟨i + 1, by simpa using hi, by rw [pick, if_neg hlt, hpick, Option.map_some]⟩

/-- A position has as many numbers as its share. -/
theorem card_pick (shares : List Nat) (i : Nat) (hi : i < shares.length) :
    ((Finset.range shares.sum).filter (fun n => pick shares n = some i)).card = shares[i] := by
  have hinterval : (Finset.range shares.sum).filter (fun n => pick shares n = some i) =
      Finset.Ico (before shares i) (before shares (i + 1)) := by
    ext n
    have hend := before_le_sum shares (i + 1) (by omega)
    simp only [Finset.mem_filter, Finset.mem_range, Finset.mem_Ico, pick_eq_some_iff]
    omega
  rw [hinterval, Nat.card_Ico, before_succ shares i hi]
  omega

/-- When two lists agree in front of a position and the second has no less
    there, a number that the first gives to this position or to an earlier one
    keeps its position in the second. -/
theorem pick_grow (shares grown : List Nat) (i : Nat) (hi : i < shares.length)
    (hi' : i < grown.length) (hagree : shares.take i = grown.take i)
    (hgrow : shares[i] ≤ grown[i]) (n j : Nat) (hj : j ≤ i)
    (hpick : pick shares n = some j) : pick grown n = some j := by
  have hbefore : ∀ k, k ≤ i → before shares k = before grown k := by
    intro k hk
    have h := congrArg (fun l : List Nat => (l.take k).sum) hagree
    simpa only [before, List.take_take, Nat.min_eq_left hk] using h
  rw [pick_eq_some_iff] at hpick ⊢
  rcases hpick with ⟨_, hlow, hhigh⟩
  rw [hbefore j hj] at hlow
  have hend : before shares (j + 1) ≤ before grown (j + 1) := by
    rcases Nat.lt_or_eq_of_le hj with hlt | heq
    · exact (hbefore (j + 1) hlt).le
    · subst heq
      rw [before_succ shares j hi, before_succ grown j hi', hbefore j (Nat.le_refl j)]
      omega
  exact ⟨by omega, hlow, by omega⟩

end Shares
