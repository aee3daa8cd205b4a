import Mathlib

/-!
# Histograms

Counting the elements of a list by a key, and adding the counts up again.

There are two ways to have one count for each key. Either the keys are the
values that occur, each once, or they are the numbers below a bound. Both times
the counts of some of the keys add up to the number of elements that have one
of these keys, so nothing is counted twice and nothing is left out.

## Theorems

* `nodup_eraseDups`: Erasing duplicates leaves none.
* `sum_count_keys`: Counts of the values that occur.
* `sum_count_classes`: Counts of the numbers below a bound.
* `forall_of_countP_eq`: Nothing is left out if the counts agree.
-/

variable {α : Type}

theorem nodup_eraseDups [BEq α] [LawfulBEq α] (l : List α) : l.eraseDups.Nodup := by
  -- By induction on the length: the tail is erased after it was filtered.
  induction hn : l.length using Nat.strong_induction_on generalizing l with
  | _ n ih =>
      cases l with
      | nil => exact List.nodup_nil
      | cons a l =>
          rw [List.eraseDups_cons, List.nodup_cons]
          have hlen : (l.filter (fun b => !b == a)).length < n := by
            rw [← hn]
            exact Nat.lt_succ_of_le (List.length_filter_le _ l)
          refine ⟨fun ha => ?_, ih _ hlen _ rfl⟩
          rw [List.mem_eraseDups, List.mem_filter] at ha
          simp at ha

/-- The counts of the values of a kind add up to the elements of the kind. -/
theorem sum_count_keys [DecidableEq α] (p : α → Bool) (l keys : List α) (hnodup : keys.Nodup)
    (hmem : ∀ a, a ∈ keys ↔ a ∈ l) :
    ((keys.filter p).map (fun a => l.count a)).sum = l.countP p := by
  have hperm : keys.Perm l.dedup := by
    rw [List.perm_ext_iff_of_nodup hnodup (List.nodup_dedup l)]
    exact fun a => (hmem a).trans List.mem_dedup.symm
  rw [← List.sum_map_count_dedup_filter_eq_countP p l]
  exact ((hperm.filter p).map _).sum_eq

/-- An element whose class is below the next bound is below the old one or has
    the new class. -/
theorem countP_lt_succ (f : α → Nat) (l : List α) (n : Nat) :
    l.countP (fun a => decide (f a < n + 1)) =
      l.countP (fun a => decide (f a < n)) + l.countP (fun a => f a == n) := by
  induction l with
  | nil => rfl
  | cons a l ih =>
      rw [List.countP_cons, List.countP_cons, List.countP_cons, ih]
      rcases Nat.lt_trichotomy (f a) n with hlt | heq | hgt
      · simp [hlt, Nat.lt_succ_of_lt hlt, Nat.ne_of_lt hlt]
        omega
      · simp [heq]
        omega
      · simp [Nat.not_lt_of_gt hgt, Nat.ne_of_gt hgt, Nat.not_lt.mpr (Nat.succ_le_of_lt hgt)]

/-- The counts of the classes below a bound add up to the elements whose class
    is below it. -/
theorem sum_count_classes (f : α → Nat) (l : List α) (n : Nat) :
    ((List.range n).map (fun i => l.countP (fun a => f a == i))).sum =
      l.countP (fun a => decide (f a < n)) := by
  induction n with
  | zero => simp
  | succ n ih =>
      rw [List.range_succ, List.map_append, List.sum_append, ih, List.map_singleton,
        List.sum_singleton, countP_lt_succ]

/-- If a stronger predicate holds as often, it holds wherever the weaker one
    does. -/
theorem forall_of_countP_eq (p q : α → Bool) (l : List α)
    (himp : ∀ a ∈ l, p a = true → q a = true) (h : l.countP p = l.countP q) :
    ∀ a ∈ l, q a = true → p a = true := by
  induction l with
  | nil => exact fun a ha => absurd ha List.not_mem_nil
  | cons b l ih =>
      have hle : l.countP p ≤ l.countP q :=
        List.countP_mono_left (fun a ha => himp a (List.mem_cons_of_mem b ha))
      have hb := himp b List.mem_cons_self
      rw [List.countP_cons, List.countP_cons] at h
      have hhead : q b = true → p b = true := by
        intro hq
        by_contra hp
        rw [if_pos hq, if_neg hp] at h
        omega
      have htail : l.countP p = l.countP q := by
        by_cases hp : p b = true
        · rw [if_pos hp, if_pos (hb hp)] at h
          omega
        · rw [if_neg hp, if_neg (fun hq => hp (hhead hq))] at h
          exact h
      rintro a ha hq
      rcases List.mem_cons.mp ha with rfl | ha
      · exact hhead hq
      · exact ih (fun c hc => himp c (List.mem_cons_of_mem b hc)) htail a ha hq
