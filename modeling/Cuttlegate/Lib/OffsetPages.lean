import Mathlib.Data.List.Nodup
import Cuttlegate.Lib.Sorter

/-!
# Pages at an Offset

Reading a collection page by page, where each page is a slice of the sorted
collection and every page sorts anew. The sort promises nothing about ties, so
two pages may be slices of different arrangements.

The pages together are the collection, whatever the arrangements, exactly if no
two elements tie across the end of a page. If none do, then the first elements
up to the end of a page are the same in every arrangement, since they are those
that come before the next one (`take_perm`). If two do, then an arrangement
that exchanges them shows one of them on both pages (`swapping`).

## Main definitions

* `slice`, `concat`: A page, and the pages one after the other.
* `Strict`: No two elements tie across the end of a page.
* `swapAt`, `swapping`: An arrangement that exchanges two ties.

## Theorems

* `filter_prefix`: What comes before a bound is a prefix of what is sorted.
* `take_perm`: The elements before the end of a page.
* `concat_perm`, `concat_sorted`: What the pages are together.
* `exact_iff`: When they are the collection for all arrangements.
-/

namespace OffsetPages

variable {α : Type} (less : α → α → Bool)

/-- No element comes before one that is less. -/
def Sorted (l : List α) : Prop := l.Pairwise (fun a b => less b a = false)

/-- The `i`th page, counted from zero. -/
def slice (L i : Nat) (l : List α) : List α := (l.drop (i * L)).take L

/-- The first pages, each of its own arrangement. -/
def concat (L m : Nat) (arranged : Nat → List α) : List α :=
  ((List.range m).map (fun i => slice L i (arranged i))).flatten

/-- The last element of every page is less than the next one. -/
def Strict (L : Nat) (l : List α) : Prop :=
  ∀ k, 1 ≤ k → ∀ a b, l[k * L - 1]? = some a → l[k * L]? = some b → less a b = true

theorem concat_succ (L m : Nat) (arranged : Nat → List α) :
    concat L (m + 1) arranged = concat L m arranged ++ slice L m (arranged m) := by
  simp [concat, List.range_succ]

theorem take_slice (L m : Nat) (l : List α) :
    l.take ((m + 1) * L) = l.take (m * L) ++ slice L m l := by
  rw [Nat.succ_mul, List.take_add, slice]

/-! ## Without ties at the boundaries -/

section Strict

variable {less} (hw : StrictWeak less)

include hw

/-- Below an element that is less, everything is less. -/
theorem less_of_less (x a b : α) (hxa : less a x = false) (hab : less a b = true) :
    less x b = true := by
  by_contra hxb
  have hba := hw.trans b x a (Bool.not_eq_true _ ▸ hxb) hxa
  rw [hab] at hba
  exact (nomatch hba)

/-- What is less than a bound is a prefix of what is sorted. -/
theorem filter_prefix (l : List α) (hl : Sorted less l) (b : α) :
    l.filter (fun x => less x b) = l.take (l.filter (fun x => less x b)).length := by
  induction l with
  | nil => rfl
  | cons x l ih =>
      have hrest := List.pairwise_cons.mp hl
      by_cases hx : less x b = true
      · have hcons : (x :: l).filter (fun y => less y b) = x :: l.filter (fun y => less y b) :=
          List.filter_cons_of_pos hx
        rw [hcons, List.length_cons, List.take_succ_cons]
        exact congrArg (x :: ·) (ih hrest.2)
      · have hnone : (x :: l).filter (fun y => less y b) = [] := by
          rw [List.filter_eq_nil_iff]
          intro y hy
          rcases List.mem_cons.mp hy with rfl | hy
          · exact hx
          · intro hyb
            exact hx (less_of_less hw x y b (hrest.1 y hy) hyb)
        rw [hnone]
        rfl

/-- Up to a place without a tie the elements are the same in every
    arrangement. -/
theorem take_perm (s t : List α) (hs : Sorted less s) (ht : Sorted less t) (hperm : t.Perm s)
    (n : Nat) (hstrict : ∀ a b, s[n - 1]? = some a → s[n]? = some b → less a b = true) :
    (t.take n).Perm (s.take n) := by
  by_cases hlong : n < s.length
  · by_cases hzero : n = 0
    · rw [hzero]
      exact List.Perm.refl _
    have ha : n - 1 < s.length := by omega
    have hab := hstrict _ _ (List.getElem?_eq_getElem ha) (List.getElem?_eq_getElem hlong)
    have hself : ∀ x, less x x = false := fun x => (hw.total x x).elim id id
    -- What comes before the place is what is less than the element there.
    have hbefore : ∀ x ∈ s.take n, less x s[n] = true := by
      intro x hx
      have hn : s.take n = s.take (n - 1) ++ [s[n - 1]] := by
        have hsucc := List.take_succ_eq_append_getElem ha
        rw [show n - 1 + 1 = n by omega] at hsucc
        exact hsucc
      have hpair : Sorted less (s.take n) := hs.sublist (List.take_sublist _ _)
      unfold Sorted at hpair
      rw [hn] at hx hpair
      rcases List.mem_append.mp hx with hx | hx
      · have hle := (List.pairwise_append.mp hpair).2.2 x hx _ (List.mem_singleton.mpr rfl)
        exact less_of_less hw x _ _ hle hab
      · rw [List.mem_singleton.mp hx]
        exact hab
    have hafter : ∀ x ∈ s.drop n, ¬ less x s[n] = true := by
      intro x hx
      have hpair : Sorted less (s.drop n) := hs.sublist (List.drop_sublist _ _)
      unfold Sorted at hpair
      rw [List.drop_eq_getElem_cons hlong] at hx hpair
      rw [Bool.not_eq_true]
      rcases List.mem_cons.mp hx with rfl | hx
      · exact hself _
      · exact (List.pairwise_cons.mp hpair).1 x hx
    have hfilter : s.filter (fun x => less x s[n]) = s.take n := by
      have hsplit : (s.take n ++ s.drop n).filter (fun x => less x s[n]) = s.take n := by
        rw [List.filter_append, List.filter_eq_self.mpr hbefore,
          List.filter_eq_nil_iff.mpr hafter, List.append_nil]
      rw [List.take_append_drop] at hsplit
      exact hsplit
    have hboth : (t.filter (fun x => less x s[n])).Perm (s.take n) := by
      rw [← hfilter]
      exact hperm.filter _
    have hlength : (t.filter (fun x => less x s[n])).length = n := by
      rw [hboth.length_eq, List.length_take]
      omega
    have hprefix := filter_prefix hw t ht s[n]
    rw [hlength] at hprefix
    rw [← hprefix]
    exact hboth
  · have hlength := hperm.length_eq
    rw [List.take_of_length_le (by omega), List.take_of_length_le (by omega)]
    exact hperm

variable (L : Nat) (s : List α) (hs : Sorted less s) (hstrict : Strict less L s)

include hs hstrict

theorem take_page_perm (t : List α) (ht : Sorted less t) (hperm : t.Perm s) (k : Nat) :
    (t.take (k * L)).Perm (s.take (k * L)) := by
  by_cases hk : 1 ≤ k
  · exact take_perm hw s t hs ht hperm _ (hstrict k hk)
  · have hzero : k = 0 := by omega
    rw [hzero, Nat.zero_mul]
    exact List.Perm.refl _

/-- A page has the same elements in every arrangement. -/
theorem slice_perm (t : List α) (ht : Sorted less t) (hperm : t.Perm s) (i : Nat) :
    (slice L i t).Perm (slice L i s) := by
  have hbefore := take_page_perm hw L s hs hstrict t ht hperm i
  have hafter := take_page_perm hw L s hs hstrict t ht hperm (i + 1)
  rw [take_slice, take_slice] at hafter
  exact (List.perm_append_left_iff _).mp ((hbefore.symm.append_right _).trans hafter)

variable (arranged : Nat → List α) (harranged : ∀ i, Sorted less (arranged i))
  (hperm : ∀ i, (arranged i).Perm s)

include harranged hperm

/-- The first pages together are a prefix of one arrangement. -/
theorem concat_perm (m : Nat) : (concat L m arranged).Perm (s.take (m * L)) := by
  induction m with
  | zero =>
      rw [Nat.zero_mul]
      exact List.Perm.refl _
  | succ m ih =>
      rw [concat_succ, take_slice]
      exact ih.append (slice_perm hw L s hs hstrict _ (harranged m) (hperm m) m)

/-- They are sorted. -/
theorem concat_sorted (m : Nat) : Sorted less (concat L m arranged) := by
  induction m with
  | zero => exact List.Pairwise.nil
  | succ m ih =>
      have hslice : Sorted less (slice L m (arranged m)) :=
        (harranged m).sublist ((List.take_sublist _ _).trans (List.drop_sublist _ _))
      unfold Sorted
      rw [concat_succ, List.pairwise_append]
      refine ⟨ih, hslice, fun x hx y hy => ?_⟩
      have hx' := (concat_perm hw L s hs hstrict arranged harranged hperm m).subset hx
      have hy' := (slice_perm hw L s hs hstrict _ (harranged m) (hperm m) m).subset hy
      have hsplit : Sorted less (s.take (m * L) ++ s.drop (m * L)) := by
        rw [List.take_append_drop]
        exact hs
      exact (List.pairwise_append.mp hsplit).2.2 x hx' y (List.mem_of_mem_take hy')

end Strict

/-! ## Exchanging two ties -/

/-- Exchange two neighbours if they tie. -/
def swapAt : Nat → List α → List α
  | 0, a :: b :: l => if less a b then a :: b :: l else b :: a :: l
  | n + 1, a :: l => a :: swapAt n l
  | _, l => l

theorem swapAt_perm (n : Nat) : ∀ l : List α, (swapAt less n l).Perm l := by
  induction n with
  | zero =>
      intro l
      match l with
      | [] => exact List.Perm.refl _
      | [_] => exact List.Perm.refl _
      | a :: b :: l =>
          unfold swapAt
          by_cases hab : less a b = true
          · rw [if_pos hab]
          · rw [if_neg hab]
            exact List.Perm.swap a b l
  | succ n ih =>
      intro l
      cases l with
      | nil => exact List.Perm.refl _
      | cons a l => exact (ih l).cons a

/-- What is sorted stays sorted. -/
theorem swapAt_sorted (n : Nat) : ∀ l : List α, Sorted less l → Sorted less (swapAt less n l) := by
  induction n with
  | zero =>
      intro l hl
      match l, hl with
      | [], hl => exact hl
      | [_], hl => exact hl
      | a :: b :: l, hl =>
          unfold swapAt
          by_cases hab : less a b = true
          · rw [if_pos hab]
            exact hl
          · have ha := List.pairwise_cons.mp hl
            have hb := List.pairwise_cons.mp ha.2
            rw [if_neg hab]
            refine List.pairwise_cons.mpr ⟨fun x hx => ?_, List.pairwise_cons.mpr ⟨fun x hx => ?_,
              hb.2⟩⟩
            · rcases List.mem_cons.mp hx with rfl | hx
              · exact Bool.not_eq_true _ ▸ hab
              · exact hb.1 x hx
            · exact ha.1 x (List.mem_cons_of_mem _ hx)
  | succ n ih =>
      intro l hl
      cases l with
      | nil => exact hl
      | cons a l =>
          have ha := List.pairwise_cons.mp hl
          refine List.pairwise_cons.mpr ⟨fun x hx => ?_, ih l ha.2⟩
          exact ha.1 x ((swapAt_perm less n l).subset hx)

/-- Of two neighbours that tie the first comes second. -/
theorem swapAt_getElem (n : Nat) (a b : α) (htie : less a b = false) :
    ∀ l : List α, l[n]? = some a → l[n + 1]? = some b → (swapAt less n l)[n + 1]? = some a := by
  induction n with
  | zero =>
      intro l ha hb
      match l, ha, hb with
      | x :: y :: l, ha, hb =>
          simp only [List.getElem?_cons_zero, List.getElem?_cons_succ, Option.some.injEq] at ha hb
          rw [ha, hb, swapAt, htie]
          rfl
  | succ n ih =>
      intro l ha hb
      cases l with
      | nil => simp at ha
      | cons x l =>
          simp only [List.getElem?_cons_succ] at ha hb
          exact ih l ha hb

/-- An arrangement that exchanges two neighbours if they tie. -/
def swapping (n : Nat) : Sorter where
  sort less l := swapAt less n (Sorter.insertion.sort less l)
  perm less l := (swapAt_perm less n _).trans (Sorter.insertion.perm less l)
  sorted less l hw := swapAt_sorted less n _ (Sorter.insertion.sorted less l hw)

/-! ## Exactness -/

/-- An element at a place of a page is on the page. -/
theorem mem_slice (L i j : Nat) (hj : j < L) (l : List α) (a : α)
    (ha : l[i * L + j]? = some a) : a ∈ slice L i l := by
  refine List.mem_of_getElem? (i := j) ?_
  rw [slice, List.getElem?_take, if_pos hj, List.getElem?_drop]
  exact ha

/-- An element that is on two pages is there twice. -/
theorem not_nodup (L m i j : Nat) (hij : i < j) (hj : j < m) (arranged : Nat → List α) (a : α)
    (hi : a ∈ slice L i (arranged i)) (hj' : a ∈ slice L j (arranged j)) :
    ¬ (concat L m arranged).Nodup := by
  intro hnodup
  have hdisjoint := (List.nodup_flatten.mp hnodup).2
  rw [List.pairwise_iff_getElem] at hdisjoint
  have hpair := hdisjoint i j (by simp; omega) (by simp; omega) hij
  simp only [List.getElem_map, List.getElem_range] at hpair
  exact hpair hi hj'

/-- For all arrangements of the pages they are the collection, in order,
    exactly if no two elements tie across the end of a page. -/
theorem exact_iff (hw : StrictWeak less) (L : Nat) (hL : 0 < L) (l : List α) (hl : l.Nodup)
    (m : Nat) (hm : l.length ≤ m * L) :
    (∀ order : Nat → Sorter,
        (concat L m (fun i => (order i).sort less l)).Perm l ∧
          Sorted less (concat L m (fun i => (order i).sort less l))) ↔
      Strict less L (Sorter.insertion.sort less l) := by
  constructor
  · intro hall k hk a b ha hb
    by_contra htie
    rw [Bool.not_eq_true] at htie
    -- Only the page after the boundary is of the other arrangement.
    have hperm := (hall (fun i => if i = k then swapping (k * L - 1) else Sorter.insertion)).1
    have hlt := (List.getElem?_eq_some_iff.mp hb).1
    rw [(Sorter.insertion.perm less l).length_eq] at hlt
    have hkm : k < m := Nat.lt_of_mul_lt_mul_right (Nat.lt_of_lt_of_le hlt hm)
    have hplace : (k - 1) * L + (L - 1) = k * L - 1 ∧ k * L - 1 + 1 = k * L := by
      have hsucc : k * L = (k - 1) * L + L := by
        rw [← Nat.succ_mul, Nat.succ_eq_add_one, Nat.sub_add_cancel hk]
      omega
    refine not_nodup L m (k - 1) k (by omega) hkm _ a ?_ ?_ (hperm.nodup_iff.mpr hl)
    · simp only [if_neg (show k - 1 ≠ k by omega)]
      exact mem_slice L (k - 1) (L - 1) (by omega) _ a (by rw [hplace.1]; exact ha)
    · simp only [if_pos]
      refine mem_slice L k 0 hL _ a ?_
      have hswap := swapAt_getElem less (k * L - 1) a b htie _ ha (by rw [hplace.2]; exact hb)
      rw [hplace.2] at hswap
      exact hswap
  · intro hstrict order
    have hsorted : Sorted less (Sorter.insertion.sort less l) := Sorter.insertion.sorted less l hw
    have hperm : ∀ i, ((order i).sort less l).Perm (Sorter.insertion.sort less l) := fun i =>
      ((order i).perm less l).trans (Sorter.insertion.perm less l).symm
    have harranged : ∀ i, Sorted less ((order i).sort less l) := fun i =>
      (order i).sorted less l hw
    refine ⟨?_, concat_sorted hw L _ hsorted hstrict _ harranged hperm m⟩
    have hall := concat_perm hw L _ hsorted hstrict _ harranged hperm m
    rw [List.take_of_length_le] at hall
    · exact hall.trans (Sorter.insertion.perm less l)
    · rw [(Sorter.insertion.perm less l).length_eq]
      exact hm

end OffsetPages
