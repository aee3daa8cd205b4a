import Cuttlegate.Lib.Keyset
import Mathlib.Order.WellFounded

/-!
# Pages of a Collection That Changes

A client that follows the cursors of `Keyset` while items come and go. Each
request is answered from the items there are at the time.

A cursor bounds the next page by a key, not by a position, so the pages stay
apart whatever happens in between: the keys go down, no item comes twice, and
the client comes to an end. An item that is there all the time can only be
missed where a page ends, if its key lies between the bound of the cursor and
the last key of the page (`Scheme.moving_complete`). This is what is left of the
clear boundaries of a fixed collection.

Cursors that ask for everything again are excluded.

## Main definitions

* `Scheme.Under`: An item lies below the bound of a request.

## Theorems

* `Scheme.moving_cases`: One request.
* `Scheme.moving_sound`, `Scheme.moving_nodup`: What is read.
* `Scheme.moving_complete`: What is not missed.
* `Scheme.moving_ends`: The client comes to an end.
-/

namespace Keyset.Scheme

variable {α κ : Type} [LinearOrder κ] (P : Scheme α κ)

/-- An item lies below the bound of a request, if there is one. -/
def Under (b : Option κ) (a : α) : Prop := ∀ c, b = some c → P.key a < c

theorem mem_select (items : List α) (b : Option κ) (a : α) :
    a ∈ P.select items b ↔ a ∈ items ∧ P.Under b a := by
  cases b with
  | none => exact ⟨fun h => ⟨h, fun c hc => nomatch hc⟩, fun h => h.1⟩
  | some c =>
      rw [select, List.mem_filter, decide_eq_true_iff]
      refine and_congr_right (fun _ => ⟨fun h d hd => ?_, fun h => h c rfl⟩)
      cases hd
      exact h

section Moving

variable (items : Nat → List α) (query : Nat → Option κ → List α)
  (hquery : ∀ n b, P.IsPage (P.select (items n) b) (query n b))

include hquery

/-- One request: it is the last one, with everything that is left, or there are
    more, from below the last key. -/
theorem moving_cases (hall : ∀ n, ∀ a ∈ items n, P.cut (P.key a) ≠ .all) (fuel n : Nat)
    (b : Option κ) (l : List α) (h : P.follow query (fuel + 1) n b = some l) :
    (l.Perm (P.select (items n) b) ∧ P.Ordered l) ∨
      ∃ (a : α) (sorted : List α) (c : κ) (rest : List α),
        sorted.Perm (P.select (items n) b) ∧ P.Ordered sorted ∧
        (sorted.take P.limit).getLast? = some a ∧ P.cut (P.key a) = .below c ∧
        P.follow query fuel (n + 1) (some c) = some rest ∧ l = sorted.take P.limit ++ rest := by
  rcases P.cases_of_isPage _ _ (hquery n b) with
    ⟨hlength, _, hperm, hordered⟩ | ⟨a, sorted, hperm, hsorted, hpage, hlength, hlast, _⟩
  · rw [follow, if_neg hlength, Option.some.injEq] at h
    rw [← h]
    exact .inl ⟨hperm, hordered⟩
  · have ha : a ∈ items n := ((P.mem_select (items n) b a).mp (hperm.subset
      (List.mem_of_mem_take (hpage ▸ List.mem_of_getLast? hlast)))).1
    rw [follow, if_pos hlength, hlast, Option.map_some] at h
    cases hcut : P.cut (P.key a) with
    | refused => simp [hcut] at h
    | all => exact absurd hcut (hall n a ha)
    | below c =>
        simp only [hcut] at h
        rcases Option.map_eq_some_iff.mp h with ⟨rest, hrest, hl⟩
        rw [hpage] at hlast hl
        exact .inr ⟨a, sorted, c, rest, hperm, hsorted, hlast, hcut, hrest, hl.symm⟩

/-- What is read lies below the bound, was there when it was read, and comes in
    order. -/
theorem moving_sound (hall : ∀ n, ∀ a ∈ items n, P.cut (P.key a) ≠ .all) (fuel : Nat) :
    ∀ (n : Nat) (b : Option κ) (l : List α), P.follow query fuel n b = some l →
      P.Ordered l ∧ ∀ x ∈ l, P.Under b x ∧ ∃ m, n ≤ m ∧ x ∈ items m := by
  induction fuel with
  | zero => exact fun n b l h => nomatch h
  | succ fuel ih =>
      intro n b l h
      rcases P.moving_cases items query hquery hall fuel n b l h with
        ⟨hperm, hordered⟩ | ⟨a, sorted, c, rest, hperm, hsorted, hlast, hcut, hrest, rfl⟩
      · refine ⟨hordered, fun x hx => ?_⟩
        rcases (P.mem_select (items n) b x).mp (hperm.subset hx) with ⟨hin, hunder⟩
        exact ⟨hunder, n, Nat.le_refl n, hin⟩
      · rcases ih (n + 1) (some c) rest hrest with ⟨hordered, hread⟩
        have hc := P.cut_le _ _ hcut
        have habove := P.page_above sorted hsorted a c hlast hc
        have hselected : ∀ x ∈ sorted.take P.limit, x ∈ items n ∧ P.Under b x := fun x hx =>
          (P.mem_select (items n) b x).mp (hperm.subset (List.mem_of_mem_take hx))
        refine ⟨List.pairwise_append.mpr ⟨hsorted.sublist (List.take_sublist _ _), hordered,
          fun x hx y hy => ?_⟩, fun x hx => ?_⟩
        · exact le_of_lt (lt_of_lt_of_le ((hread y hy).1 c rfl) (habove x hx))
        · rcases List.mem_append.mp hx with hx | hx
          · exact ⟨(hselected x hx).2, n, Nat.le_refl n, (hselected x hx).1⟩
          · rcases hread x hx with ⟨hunder, m, hm, hin⟩
            refine ⟨fun d hd => ?_, m, Nat.le_of_succ_le hm, hin⟩
            -- The bound of the next request is below a key of this page, and so below this bound.
            have ha := (hselected a (List.mem_of_getLast? hlast)).2 d hd
            exact lt_of_lt_of_le (hunder c rfl) (le_trans hc (le_of_lt ha))

/-- No item is read twice. -/
theorem moving_nodup (hall : ∀ n, ∀ a ∈ items n, P.cut (P.key a) ≠ .all)
    (hnodup : ∀ n, (items n).Nodup) (fuel : Nat) :
    ∀ (n : Nat) (b : Option κ) (l : List α), P.follow query fuel n b = some l → l.Nodup := by
  have hselect : ∀ n b, (P.select (items n) b).Nodup := by
    intro n b
    cases b with
    | none => exact hnodup n
    | some c => exact (hnodup n).filter _
  induction fuel with
  | zero => exact fun n b l h => nomatch h
  | succ fuel ih =>
      intro n b l h
      rcases P.moving_cases items query hquery hall fuel n b l h with
        ⟨hperm, _⟩ | ⟨a, sorted, c, rest, hperm, hsorted, hlast, hcut, hrest, rfl⟩
      · exact hperm.nodup_iff.mpr (hselect n b)
      · refine List.Nodup.append ((hperm.nodup_iff.mpr (hselect n b)).sublist
          (List.take_sublist _ _)) (ih (n + 1) (some c) rest hrest) (fun x hx hy => ?_)
        have habove := P.page_above sorted hsorted a c hlast (P.cut_le _ _ hcut) x hx
        have hunder := ((P.moving_sound items query hquery hall fuel (n + 1) (some c) rest
          hrest).2 x hy).1 c rfl
        exact absurd hunder (not_lt_of_ge habove)

/-- An item that is there at every request is read, unless its key lies between
    the bound of a cursor and the last key of the page before it. -/
theorem moving_complete (hall : ∀ n, ∀ a ∈ items n, P.cut (P.key a) ≠ .all) (fuel : Nat) :
    ∀ (n : Nat) (b : Option κ) (l : List α), P.follow query fuel n b = some l →
      ∀ a, (∀ m, n ≤ m → m < n + fuel → a ∈ items m) → P.Under b a →
        a ∈ l ∨ ∃ x ∈ l, ∃ c, P.cut (P.key x) = .below c ∧ c ≤ P.key a ∧ P.key a ≤ P.key x := by
  induction fuel with
  | zero => exact fun n b l h => nomatch h
  | succ fuel ih =>
      intro n b l h a hthere hunder
      have hin : a ∈ P.select (items n) b :=
        (P.mem_select (items n) b a).mpr ⟨hthere n (Nat.le_refl n) (by omega), hunder⟩
      rcases P.moving_cases items query hquery hall fuel n b l h with
        ⟨hperm, _⟩ | ⟨x, sorted, c, rest, hperm, hsorted, hlast, hcut, hrest, rfl⟩
      · exact .inl (hperm.mem_iff.mpr hin)
      · have hx := List.mem_of_getLast? hlast
        have hsplit : a ∈ sorted.take P.limit ++ sorted.drop P.limit := by
          rw [List.take_append_drop]
          exact hperm.mem_iff.mpr hin
        rcases List.mem_append.mp hsplit with htake | hdrop
        · exact .inl (List.mem_append_left _ htake)
        · by_cases hbelow : P.key a < c
          · have hlater := ih (n + 1) (some c) rest hrest a
              (fun m hm hm' => hthere m (by omega) (by omega))
              (fun d hd => by cases hd; exact hbelow)
            refine hlater.imp (List.mem_append_right _) ?_
            rintro ⟨y, hy, d, hd⟩
            exact ⟨y, List.mem_append_right _ hy, d, hd⟩
          · -- It comes after the page, and the next request does not ask for it.
            have hordered : P.Ordered (sorted.take P.limit ++ sorted.drop P.limit) := by
              rw [List.take_append_drop]
              exact hsorted
            refine .inr ⟨x, List.mem_append_left _ hx, c, hcut, le_of_not_gt hbelow, ?_⟩
            exact (List.pairwise_append.mp hordered).2.2 x hx a hdrop

/-- If every cursor can be read, the client comes to an end, since the bounds go
    down. -/
theorem moving_ends [WellFoundedLT κ]
    (hread : ∀ n, ∀ a ∈ items n, ∃ c, P.cut (P.key a) = .below c) (n : Nat) (b : Option κ) :
    ∃ fuel l, P.follow query fuel n b = some l := by
  have hstep : ∀ n b, (∀ a c, P.Under b a → P.cut (P.key a) = .below c →
      ∃ fuel l, P.follow query fuel (n + 1) (some c) = some l) →
      ∃ fuel l, P.follow query fuel n b = some l := by
    intro n b hnext
    rcases P.cases_of_isPage _ _ (hquery n b) with
      ⟨hlength, _⟩ | ⟨a, sorted, hperm, _, hpage, hlength, hlast, _⟩
    · exact ⟨1, query n b, by rw [follow, if_neg hlength]⟩
    · rcases (P.mem_select (items n) b a).mp (hperm.subset
        (List.mem_of_mem_take (hpage ▸ List.mem_of_getLast? hlast))) with ⟨hin, hunder⟩
      rcases hread n a hin with ⟨c, hcut⟩
      rcases hnext a c hunder hcut with ⟨fuel, l, hl⟩
      refine ⟨fuel + 1, query n b ++ l, ?_⟩
      rw [follow, if_pos hlength, hlast, Option.map_some]
      simp only [hcut, hl, Option.map_some]
  have hbounded : ∀ (c : κ) (n : Nat), ∃ fuel l, P.follow query fuel n (some c) = some l := by
    intro c
    induction c using WellFoundedLT.induction with
    | ind c ih =>
        intro n
        refine hstep n (some c) (fun a d hunder hcut => ih d ?_ (n + 1))
        exact lt_of_le_of_lt (P.cut_le _ _ hcut) (hunder c rfl)
  exact hstep n b (fun a c _ _ => hbounded c (n + 1))

end Moving

end Keyset.Scheme
