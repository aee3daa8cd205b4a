import Mathlib.Data.List.Sort
import Mathlib.Order.Lattice

/-!
# Pages Behind a Cursor

Reading a collection page by page, the greatest keys first, where the cursor
of the next page is made from the key of the last item. The server sorts anew
for every page and breaks ties as it likes.

What the next request asks for is decided by the key alone: nothing that can
be read, everything again, or the items strictly below some key that is at
most the last one. A client that follows the cursors has read every item once
exactly if every page boundary is clear, that is, the item after it has a key
below the cursor's. Two ways of failing are different in kind. If the boundary
is not clear, items are lost. If the cursor cannot be read or asks for
everything again, the client never comes to an end, since the keys at the
boundaries do not depend on how ties are broken (`Blocked`).

## Main definitions

* `Cut`: What a request with a cursor asks for.
* `Scheme`: The key, the length of a page, and the cursors.
* `Scheme.follow`: The client.
* `Scheme.sortedKeys`, `Scheme.Clear`: The boundaries.
* `Scheme.Blocked`: A cursor on the way cannot be used.

## Theorems

* `Scheme.cases_of_isPage`: What a page is, in terms of the sorted keys.
* `Scheme.select_after`: What the request after a full page asks for.
* `Scheme.follow_of_clear`, `Scheme.clear_of_follow`: The two directions.
* `Scheme.exact_iff`: Every item is read once exactly if all boundaries are
  clear.
-/

namespace Keyset

/-- What a request with a cursor asks for. -/
inductive Cut (κ : Type) where
  | refused
  | all
  | below (c : κ)

/-- How a collection is read in pages. -/
structure Scheme (α κ : Type) [LinearOrder κ] where
  key : α → κ
  limit : Nat
  limit_pos : 0 < limit
  cut : κ → Cut κ
  /-- A cursor never asks for the item it was made from. -/
  cut_le : ∀ t c, cut t = .below c → c ≤ t

namespace Scheme

variable {α κ : Type} [LinearOrder κ] (P : Scheme α κ)

/-- The greatest keys first. -/
def Ordered (l : List α) : Prop := l.Pairwise (fun a b => P.key b ≤ P.key a)

/-- The items a request asks for. -/
def select (items : List α) : Option κ → List α
  | none => items
  | some c => items.filter (fun a => P.key a < c)

/-- The first items in some order of the ties. -/
def IsPage (l page : List α) : Prop :=
  ∃ sorted : List α, sorted.Perm l ∧ P.Ordered sorted ∧ page = sorted.take P.limit

/-- The keys of the items, the greatest first. -/
def sortedKeys (l : List α) : List κ := (l.map P.key).insertionSort (fun a b => b ≤ a)

/-- A client that follows the cursors, for a bounded number of pages. The
    queries are numbered. -/
def follow (query : Nat → Option κ → List α) : Nat → Nat → Option κ → Option (List α)
  | 0, _, _ => none
  | fuel + 1, n, b =>
      if (query n b).length = P.limit then
        match (query n b).getLast?.map (fun a => P.cut (P.key a)) with
        | some (.below c) => (follow query fuel (n + 1) (some c)).map (query n b ++ ·)
        | some .all => (follow query fuel (n + 1) none).map (query n b ++ ·)
        | some .refused => none
        | none => none
      else some (query n b)

/-- After every full page the cursor asks for keys below one that the next
    item is below. -/
def Clear (keys : List κ) : Prop :=
  ∀ k, 1 ≤ k → ∀ t, keys[k * P.limit - 1]? = some t →
    ∃ c, P.cut t = .below c ∧ ∀ t', keys[k * P.limit]? = some t' → t' < c

/-! ## Sorted keys -/

theorem perm_sortedKeys (l : List α) : (P.sortedKeys l).Perm (l.map P.key) :=
  List.perm_insertionSort _ _

theorem length_sortedKeys (l : List α) : (P.sortedKeys l).length = l.length := by
  rw [(P.perm_sortedKeys l).length_eq, List.length_map]

theorem pairwise_sortedKeys (l : List α) :
    (P.sortedKeys l).Pairwise (fun a b => b ≤ a) := by
  have htotal : Std.Total (fun a b : κ => b ≤ a) := ⟨fun a b => le_total b a⟩
  have htrans : IsTrans κ (fun a b => b ≤ a) := ⟨fun _ _ _ hab hbc => le_trans hbc hab⟩
  exact List.pairwise_insertionSort _ _

/-- However ties are broken, the keys come in one order. -/
theorem map_key_sorted (l sorted : List α) (hperm : sorted.Perm l) (hsorted : P.Ordered sorted) :
    sorted.map P.key = P.sortedKeys l := by
  refine List.Perm.eq_of_pairwise (fun a b _ _ hab hba => le_antisymm hba hab) ?_
    (P.pairwise_sortedKeys l) ((hperm.map _).trans (P.perm_sortedKeys l).symm)
  rw [List.pairwise_map]
  exact hsorted

theorem sortedKeys_congr (l l' : List α) (h : l.Perm l') : P.sortedKeys l = P.sortedKeys l' := by
  have hmap : (P.sortedKeys l).Perm (P.sortedKeys l') :=
    (P.perm_sortedKeys l).trans ((h.map _).trans (P.perm_sortedKeys l').symm)
  exact List.Perm.eq_of_pairwise (fun a b _ _ hab hba => le_antisymm hba hab)
    (P.pairwise_sortedKeys l) (P.pairwise_sortedKeys l') hmap

/-- The keys of what follows a page. -/
theorem sortedKeys_drop (l sorted : List α) (hperm : sorted.Perm l) (hsorted : P.Ordered sorted)
    (n : Nat) : P.sortedKeys (sorted.drop n) = (P.sortedKeys l).drop n := by
  rw [← P.map_key_sorted l sorted hperm hsorted, ← List.map_drop]
  exact (P.map_key_sorted _ _ (List.Perm.refl _) (hsorted.sublist (List.drop_sublist n _))).symm

/-- A page is short and has everything, or it is full and ends with the key
    that all full pages of these items end with. -/
theorem cases_of_isPage (l page : List α) (h : P.IsPage l page) :
    (page.length ≠ P.limit ∧ l.length < P.limit ∧ page.Perm l ∧ P.Ordered page) ∨
      ∃ (a : α) (sorted : List α), sorted.Perm l ∧ P.Ordered sorted ∧
        page = sorted.take P.limit ∧ page.length = P.limit ∧ page.getLast? = some a ∧
        (P.sortedKeys l)[P.limit - 1]? = some (P.key a) := by
  rcases h with ⟨sorted, hperm, hsorted, rfl⟩
  have hpos := P.limit_pos
  by_cases hshort : sorted.length < P.limit
  · left
    rw [List.take_of_length_le (Nat.le_of_lt hshort)]
    exact ⟨by omega, by rw [← hperm.length_eq]; exact hshort, hperm, hsorted⟩
  · right
    have hin : P.limit - 1 < sorted.length := by omega
    have hlast : (sorted.take P.limit).getLast? = some sorted[P.limit - 1] := by
      rw [List.getLast?_take, if_neg (by omega), List.getElem?_eq_getElem hin]
      rfl
    refine ⟨_, sorted, hperm, hsorted, rfl, ?_, hlast, ?_⟩
    · rw [List.length_take]
      omega
    · rw [← P.map_key_sorted l sorted hperm hsorted, List.getElem?_map,
        List.getElem?_eq_getElem (by omega)]
      rfl

/-! ## Boundaries -/

/-- The first boundary, and those after it. -/
theorem clear_iff (keys : List κ) :
    P.Clear keys ↔ ∀ t, keys[P.limit - 1]? = some t →
      ∃ c, P.cut t = .below c ∧ (∀ t', keys[P.limit]? = some t' → t' < c) ∧
        P.Clear (keys.drop P.limit) := by
  have hpos := P.limit_pos
  have hshift : ∀ k, 1 ≤ k → P.limit + (k * P.limit - 1) = (k + 1) * P.limit - 1 ∧
      P.limit + k * P.limit = (k + 1) * P.limit := by
    intro k hk
    have hle : P.limit ≤ k * P.limit := Nat.le_mul_of_pos_left P.limit hk
    rw [Nat.succ_mul]
    omega
  constructor
  · intro hclear t ht
    rcases hclear 1 (Nat.le_refl 1) t (by rw [Nat.one_mul]; exact ht) with ⟨c, hcut, hnext⟩
    rw [Nat.one_mul] at hnext
    refine ⟨c, hcut, hnext, fun k hk u hu => ?_⟩
    rw [List.getElem?_drop, (hshift k hk).1] at hu
    rcases hclear (k + 1) (by omega) u hu with ⟨d, hd, hbelow⟩
    refine ⟨d, hd, fun t' ht' => ?_⟩
    rw [List.getElem?_drop, (hshift k hk).2] at ht'
    exact hbelow t' ht'
  · intro hfirst k hk u hu
    by_cases hone : k = 1
    · subst hone
      rw [Nat.one_mul] at hu ⊢
      rcases hfirst u hu with ⟨c, hcut, hnext, _⟩
      exact ⟨c, hcut, hnext⟩
    · -- A later boundary is one of what follows the first page.
      have hk' : 1 ≤ k - 1 ∧ k - 1 + 1 = k := by omega
      have hsh := hshift (k - 1) hk'.1
      rw [hk'.2] at hsh
      have hlt := (List.getElem?_eq_some_iff.mp hu).1
      have hin : P.limit - 1 < keys.length := by omega
      rcases hfirst _ (List.getElem?_eq_getElem hin) with ⟨_, _, _, hrest⟩
      rw [← hsh.1, ← List.getElem?_drop] at hu
      rcases hrest (k - 1) hk'.1 u hu with ⟨d, hd, hbelow⟩
      refine ⟨d, hd, fun t' ht' => hbelow t' ?_⟩
      rw [List.getElem?_drop, hsh.2]
      exact ht'

/-- With fewer items than a page has there is no boundary. -/
theorem clear_of_short (keys : List κ) (h : keys.length < P.limit) : P.Clear keys := by
  rw [clear_iff]
  intro t ht
  have hlt := (List.getElem?_eq_some_iff.mp ht).1
  omega

/-- What lies below a bound that the first elements do not lie below comes
    after them. -/
theorem filter_above (sorted : List α) (n : Nat) (c : κ)
    (hbefore : ∀ a ∈ sorted.take n, c ≤ P.key a) :
    sorted.filter (fun a => P.key a < c) = (sorted.drop n).filter (fun a => P.key a < c) := by
  have hsplit : sorted.filter (fun a => P.key a < c) =
      (sorted.take n).filter (fun a => P.key a < c) ++
        (sorted.drop n).filter (fun a => P.key a < c) := by
    rw [← List.filter_append, List.take_append_drop]
  rw [hsplit, List.filter_eq_nil_iff.mpr, List.nil_append]
  intro a ha
  simpa using hbefore a ha

/-- If everything lies below the bound, nothing is left out. -/
theorem filter_below (l : List α) (c : κ) (h : ∀ a ∈ l, P.key a < c) :
    l.filter (fun a => P.key a < c) = l :=
  List.filter_eq_self.mpr (fun a ha => decide_eq_true (h a ha))

section Requests

variable (items : List α)

/-- The items of a full page are not below its cursor. -/
theorem page_above (sorted : List α) (hsorted : P.Ordered sorted) (a : α) (c : κ)
    (hlast : (sorted.take P.limit).getLast? = some a) (hc : c ≤ P.key a) :
    ∀ x ∈ sorted.take P.limit, c ≤ P.key x := by
  intro x hx
  rcases List.getLast?_eq_some_iff.mp hlast with ⟨init, hinit⟩
  have hpage : P.Ordered (sorted.take P.limit) := hsorted.sublist (List.take_sublist _ _)
  unfold Ordered at hpage
  rw [hinit] at hx hpage
  rcases List.mem_append.mp hx with hx | hx
  · have hle := (List.pairwise_append.mp hpage).2.2 x hx a (List.mem_singleton.mpr rfl)
    exact le_trans hc hle
  · rw [List.mem_singleton.mp hx]
    exact hc

/-- A bound below some selected item selects from what was selected. -/
theorem select_below (b : Option κ) (c : κ) (a : α) (ha : a ∈ P.select items b) (hc : c ≤ P.key a) :
    P.select items (some c) = (P.select items b).filter (fun x => P.key x < c) := by
  cases b with
  | none => rfl
  | some d =>
      have had : P.key a < d := by
        have hmem := (List.mem_filter.mp ha).2
        simpa using hmem
      simp only [select, List.filter_filter]
      refine List.filter_congr (fun x _ => ?_)
      by_cases hx : P.key x < c
      · have hxd : P.key x < d := lt_of_lt_of_le hx (le_trans hc (le_of_lt had))
        simp [hx, hxd]
      · simp [hx]

/-- The request after a full page asks for what lies below the cursor, and all
    of that follows the page. -/
theorem select_after (b : Option κ) (sorted : List α) (a : α) (c : κ)
    (hperm : sorted.Perm (P.select items b)) (hsorted : P.Ordered sorted)
    (hlast : (sorted.take P.limit).getLast? = some a) (hcut : P.cut (P.key a) = .below c) :
    ((sorted.drop P.limit).filter (fun x => P.key x < c)).Perm (P.select items (some c)) := by
  have hc := P.cut_le _ _ hcut
  have ha : a ∈ P.select items b :=
    hperm.subset (List.mem_of_mem_take (List.mem_of_getLast? hlast))
  rw [P.select_below items b c a ha hc, ← P.filter_above sorted P.limit c
    (P.page_above sorted hsorted a c hlast hc)]
  exact hperm.filter _

/-- What follows the page is below a bound that the first key after it is
    below. -/
theorem drop_below (l sorted : List α) (hperm : sorted.Perm l) (hsorted : P.Ordered sorted) (c : κ)
    (hnext : ∀ t, (P.sortedKeys l)[P.limit]? = some t → t < c) :
    ∀ x ∈ sorted.drop P.limit, P.key x < c := by
  intro x hx
  cases hrest : sorted.drop P.limit with
  | nil =>
      rw [hrest] at hx
      exact absurd hx List.not_mem_nil
  | cons first rest =>
      have hkey : (P.sortedKeys l)[P.limit]? = some (P.key first) := by
        have hdrop := P.sortedKeys_drop l sorted hperm hsorted P.limit
        have hhead := congrArg (fun l => l[0]?) hdrop
        have hmap := P.map_key_sorted _ _ (List.Perm.refl (sorted.drop P.limit))
          (hsorted.sublist (List.drop_sublist _ _))
        simp only [List.getElem?_drop, Nat.add_zero] at hhead
        rw [← hhead, ← hmap, hrest]
        rfl
      have hordered : P.Ordered (first :: rest) := by
        rw [← hrest]
        exact hsorted.sublist (List.drop_sublist _ _)
      rw [hrest] at hx
      rcases List.mem_cons.mp hx with rfl | hx
      · exact hnext _ hkey
      · exact lt_of_le_of_lt ((List.pairwise_cons.mp hordered).1 x hx) (hnext _ hkey)

end Requests

/-! ## The client -/

section Client

variable (items : List α) (query : Nat → Option κ → List α)
  (hquery : ∀ n b, P.IsPage (P.select items b) (query n b))

/-- The cursor of a full page on the way cannot be read, or asks for everything
    again. -/
inductive Blocked : Option κ → Prop
  | refused (b : Option κ) (t : κ) (ht : (P.sortedKeys (P.select items b))[P.limit - 1]? = some t)
      (hcut : P.cut t = .refused) : Blocked b
  | again (b : Option κ) (t : κ) (ht : (P.sortedKeys (P.select items b))[P.limit - 1]? = some t)
      (hcut : P.cut t = .all) : Blocked b
  | step (b : Option κ) (t c : κ) (ht : (P.sortedKeys (P.select items b))[P.limit - 1]? = some t)
      (hcut : P.cut t = .below c) (hrest : Blocked (some c)) : Blocked b

include hquery

/-- One request of the client. -/
theorem follow_succ (fuel n : Nat) (b : Option κ) :
    ((P.select items b).length < P.limit ∧ (query n b).Perm (P.select items b) ∧
        P.Ordered (query n b) ∧ P.follow query (fuel + 1) n b = some (query n b)) ∨
      ∃ (a : α) (sorted : List α), sorted.Perm (P.select items b) ∧ P.Ordered sorted ∧
        query n b = sorted.take P.limit ∧ (query n b).getLast? = some a ∧
        (P.sortedKeys (P.select items b))[P.limit - 1]? = some (P.key a) ∧
        P.follow query (fuel + 1) n b = match P.cut (P.key a) with
          | .below c => (P.follow query fuel (n + 1) (some c)).map (query n b ++ ·)
          | .all => (P.follow query fuel (n + 1) none).map (query n b ++ ·)
          | .refused => none := by
  rcases P.cases_of_isPage _ _ (hquery n b) with
    ⟨hlength, hshort, hperm, hordered⟩ | ⟨a, sorted, hperm, hsorted, hpage, hlength, hlast, hkey⟩
  · refine .inl ⟨hshort, hperm, hordered, ?_⟩
    rw [follow, if_neg hlength]
  · refine .inr ⟨a, sorted, hperm, hsorted, hpage, hlast, hkey, ?_⟩
    rw [follow, if_pos hlength, hlast, Option.map_some]
    cases P.cut (P.key a) with
    | refused => rfl
    | all => rfl
    | below c => rfl

/-- A blocked client never comes to an end. -/
theorem follow_blocked (hstart : P.Blocked items none) (fuel : Nat) :
    ∀ n b, P.Blocked items b → P.follow query fuel n b = none := by
  induction fuel with
  | zero =>
      intro n b _
      rfl
  | succ fuel ih =>
      intro n b hb
      -- A blocked request is for a full page, and the key it ends with is determined.
      have hfull : ∃ t, (P.sortedKeys (P.select items b))[P.limit - 1]? = some t := by
        cases hb with
        | refused _ t ht _ => exact ⟨t, ht⟩
        | again _ t ht _ => exact ⟨t, ht⟩
        | step _ t _ ht _ _ => exact ⟨t, ht⟩
      rcases P.follow_succ items query hquery fuel n b with
        ⟨hshort, _⟩ | ⟨a, _, _, _, _, _, hkey, hfollow⟩
      · rcases hfull with ⟨t, ht⟩
        have hlt := (List.getElem?_eq_some_iff.mp ht).1
        rw [P.length_sortedKeys] at hlt
        have hpos := P.limit_pos
        omega
      rw [hfollow]
      cases hb with
      | refused _ t ht hcut =>
          rw [hkey, Option.some.injEq] at ht
          rw [ht, hcut]
      | again _ t ht hcut =>
          rw [hkey, Option.some.injEq] at ht
          rw [ht, hcut]
          simp only [ih (n + 1) none hstart, Option.map_none]
      | step _ t c ht hcut hrest =>
          rw [hkey, Option.some.injEq] at ht
          rw [ht, hcut]
          simp only [ih (n + 1) (some c) hrest, Option.map_none]

/-- Whatever a client reads is there. -/
theorem mem_of_follow (fuel : Nat) :
    ∀ n b all, P.follow query fuel n b = some all → ∀ x ∈ all, x ∈ items := by
  induction fuel with
  | zero =>
      intro n b all hrun
      exact (nomatch hrun)
  | succ fuel ih =>
      intro n b all hrun x hx
      have hselected : ∀ x ∈ P.select items b, x ∈ items := by
        intro x hx
        cases b with
        | none => exact hx
        | some c => exact (List.mem_filter.mp hx).1
      rcases P.follow_succ items query hquery fuel n b with
        ⟨_, hperm, _, hfollow⟩ | ⟨a, sorted, hperm, _, hpage, _, _, hfollow⟩
      · rw [hfollow, Option.some.injEq] at hrun
        rw [← hrun] at hx
        exact hselected x (hperm.subset hx)
      -- The page is part of what was asked for, and so is the rest.
      have hgo : ∀ b', (P.follow query fuel (n + 1) b').map (query n b ++ ·) = some all →
          x ∈ items := by
        intro b' hrest
        rcases Option.map_eq_some_iff.mp hrest with ⟨rest, hrest, hall⟩
        rw [← hall, List.mem_append] at hx
        rcases hx with hx | hx
        · rw [hpage] at hx
          exact hselected x (hperm.subset (List.mem_of_mem_take hx))
        · exact ih _ _ _ hrest x hx
      rw [hfollow] at hrun
      cases hcut : P.cut (P.key a) with
      | refused => simp [hcut] at hrun
      | all =>
          rw [hcut] at hrun
          exact hgo none hrun
      | below c =>
          rw [hcut] at hrun
          exact hgo (some c) hrun

/-- A client that is not blocked reads no more than it asked for. -/
theorem follow_length (fuel : Nat) :
    ∀ n b all, ¬ P.Blocked items b → P.follow query fuel n b = some all →
      all.length ≤ (P.select items b).length := by
  induction fuel with
  | zero =>
      intro n b all _ hrun
      exact (nomatch hrun)
  | succ fuel ih =>
      intro n b all hfree hrun
      rcases P.follow_succ items query hquery fuel n b with
        ⟨_, hperm, _, hfollow⟩ | ⟨a, sorted, hperm, hsorted, hpage, hlast, hkey, hfollow⟩
      · rw [hfollow, Option.some.injEq] at hrun
        rw [← hrun, hperm.length_eq]
      rw [hfollow] at hrun
      cases hcut : P.cut (P.key a) with
      | refused => exact absurd (Blocked.refused _ _ hkey hcut) hfree
      | all => exact absurd (Blocked.again _ _ hkey hcut) hfree
      | below c =>
          rw [hcut] at hrun
          rcases Option.map_eq_some_iff.mp hrun with ⟨rest, hrest, hall⟩
          rw [hpage] at hlast
          have hlength := ih (n + 1) (some c) rest
            (fun hblocked => hfree (.step _ _ _ hkey hcut hblocked)) hrest
          rw [← (P.select_after items b sorted a c hperm hsorted hlast hcut).length_eq] at hlength
          have hdrop := List.length_filter_le (fun x => decide (P.key x < c)) (sorted.drop P.limit)
          have hsplit := congrArg List.length (List.take_append_drop P.limit sorted)
          rw [List.length_append] at hsplit
          rw [← hall, ← hperm.length_eq, List.length_append, hpage]
          omega

/-- With clear boundaries the client reads every item once, in order. -/
theorem follow_of_clear (size : Nat) :
    ∀ n b, (P.select items b).length ≤ size → P.Clear (P.sortedKeys (P.select items b)) →
      ∃ fuel all, P.follow query fuel n b = some all ∧ all.Perm (P.select items b) ∧
        P.Ordered all := by
  induction size with
  | zero =>
      intro n b hsize _
      rcases P.follow_succ items query hquery 0 n b with
        ⟨_, hperm, hordered, hfollow⟩ | ⟨a, sorted, _, _, _, _, hkey, _⟩
      · exact ⟨1, _, hfollow, hperm, hordered⟩
      · have hlt := (List.getElem?_eq_some_iff.mp hkey).1
        rw [P.length_sortedKeys] at hlt
        omega
  | succ size ih =>
      intro n b hsize hclear
      rcases P.follow_succ items query hquery 0 n b with
        ⟨_, hperm, hordered, hfollow⟩ | ⟨a, sorted, hperm, hsorted, hpage, hlast, hkey, _⟩
      · exact ⟨1, _, hfollow, hperm, hordered⟩
      rcases (P.clear_iff _).mp hclear _ hkey with ⟨c, hcut, hnext, hrest⟩
      have hafter := P.drop_below _ sorted hperm hsorted c hnext
      rw [hpage] at hlast
      have hselect := P.select_after items b sorted a c hperm hsorted hlast hcut
      rw [P.filter_below _ c hafter] at hselect
      -- Fewer items are left, and their keys are the keys that are left.
      have hpos := P.limit_pos
      have hsmaller : (P.select items (some c)).length ≤ size := by
        rw [← hselect.length_eq, List.length_drop, hperm.length_eq]
        omega
      have hrest' : P.Clear (P.sortedKeys (P.select items (some c))) := by
        rw [← P.sortedKeys_congr _ _ hselect, P.sortedKeys_drop _ sorted hperm hsorted]
        exact hrest
      rcases ih (n + 1) (some c) hsmaller hrest' with ⟨fuel, rest, hrun, hrestPerm, hrestOrdered⟩
      rcases P.follow_succ items query hquery fuel n b with
        ⟨hshort, _⟩ | ⟨a', sorted', _, _, _, _, hkey', hfollow⟩
      · have hlt := (List.getElem?_eq_some_iff.mp hkey).1
        rw [P.length_sortedKeys] at hlt
        omega
      rw [hkey, Option.some.injEq] at hkey'
      rw [← hkey', hcut] at hfollow
      refine ⟨fuel + 1, query n b ++ rest, ?_, ?_, ?_⟩
      · rw [hfollow]
        simp only [hrun, Option.map_some]
      · rw [hpage]
        exact ((hrestPerm.trans hselect.symm).append_left _).trans
          ((List.Perm.of_eq (List.take_append_drop _ _)).trans hperm)
      · rw [hpage]
        refine List.pairwise_append.mpr ⟨hsorted.sublist (List.take_sublist _ _), hrestOrdered, ?_⟩
        intro x hx y hy
        have hyc := hafter y ((hrestPerm.trans hselect.symm).subset hy)
        exact le_of_lt (lt_of_lt_of_le hyc
          (P.page_above sorted hsorted a c hlast (P.cut_le _ _ hcut) x hx))

/-- A client that is not blocked and has read as many items as there are met
    clear boundaries only. -/
theorem clear_of_follow (fuel : Nat) :
    ∀ n b all, ¬ P.Blocked items b → P.follow query fuel n b = some all →
      (P.select items b).length ≤ all.length → P.Clear (P.sortedKeys (P.select items b)) := by
  induction fuel with
  | zero =>
      intro n b all _ hrun _
      exact (nomatch hrun)
  | succ fuel ih =>
      intro n b all hfree hrun hall
      rcases P.follow_succ items query hquery fuel n b with
        ⟨hshort, _⟩ | ⟨a, sorted, hperm, hsorted, hpage, hlast, hkey, hfollow⟩
      · exact P.clear_of_short _ (by rw [P.length_sortedKeys]; exact hshort)
      rw [P.clear_iff]
      intro t ht
      rw [hkey, Option.some.injEq] at ht
      rw [← ht]
      rw [hfollow] at hrun
      cases hcut : P.cut (P.key a) with
      | refused => exact absurd (Blocked.refused _ _ hkey hcut) hfree
      | all => exact absurd (Blocked.again _ _ hkey hcut) hfree
      | below c =>
          rw [hcut] at hrun
          rcases Option.map_eq_some_iff.mp hrun with ⟨rest, hrest, hsum⟩
          rw [hpage] at hlast
          have hfree' : ¬ P.Blocked items (some c) :=
            fun hblocked => hfree (.step _ _ _ hkey hcut hblocked)
          have hselect := P.select_after items b sorted a c hperm hsorted hlast hcut
          have hlength := P.follow_length items query hquery fuel _ _ _ hfree' hrest
          have hdrop := List.length_filter_le (fun x => decide (P.key x < c)) (sorted.drop P.limit)
          have hsplit := congrArg List.length (List.take_append_drop P.limit sorted)
          rw [List.length_append] at hsplit
          rw [← hsum, ← hperm.length_eq, List.length_append, hpage] at hall
          rw [← hselect.length_eq] at hlength
          -- Nothing of what follows the page may be left out.
          have hafter : ∀ x ∈ sorted.drop P.limit, P.key x < c := by
            have hnone := List.length_filter_eq_length_iff.mp (show
              ((sorted.drop P.limit).filter (fun x => decide (P.key x < c))).length =
                (sorted.drop P.limit).length by omega)
            intro x hx
            exact of_decide_eq_true (hnone x hx)
          rw [P.filter_below _ c hafter] at hselect
          refine ⟨c, rfl, fun t' ht' => ?_, ?_⟩
          · rw [← P.map_key_sorted _ sorted hperm hsorted, List.getElem?_map,
              Option.map_eq_some_iff] at ht'
            rcases ht' with ⟨x, hx, rfl⟩
            refine hafter x (List.mem_of_getElem? (i := 0) ?_)
            rw [List.getElem?_drop, Nat.add_zero]
            exact hx
          · have hrec := ih _ _ _ hfree' hrest (by rw [← hselect.length_eq]; omega)
            rw [← P.sortedKeys_congr _ _ hselect, P.sortedKeys_drop _ sorted hperm hsorted] at hrec
            exact hrec

/-- Following the cursors ends and has read every item once, the greatest keys
    first, exactly if every page boundary is clear, also if less is shown of an
    item than there is. -/
theorem exact_iff {β : Type} (view : α → β) :
    (∃ fuel all, (P.follow query fuel 0 none).map (List.map view) = some (all.map view) ∧
        all.Perm items ∧ P.Ordered all) ↔ P.Clear (P.sortedKeys items) := by
  constructor
  · rintro ⟨fuel, all, hrun, hperm, _⟩
    rcases Option.map_eq_some_iff.mp hrun with ⟨read, hread, hview⟩
    have hlength := congrArg List.length hview
    rw [List.length_map, List.length_map, hperm.length_eq] at hlength
    have hfree : ¬ P.Blocked items none := by
      intro hblocked
      rw [P.follow_blocked items query hquery hblocked fuel 0 none hblocked] at hread
      exact (nomatch hread)
    exact P.clear_of_follow items query hquery fuel 0 none read hfree hread (le_of_eq hlength.symm)
  · intro hclear
    rcases P.follow_of_clear items query hquery items.length 0 none (Nat.le_refl _) hclear with
      ⟨fuel, all, hrun, hperm, hordered⟩
    exact ⟨fuel, all, by rw [hrun]; rfl, hperm, hordered⟩

end Client

end Scheme

end Keyset
