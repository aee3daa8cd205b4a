import Mathlib.Data.List.Sort

/-!
# Unstable Sorting

A sort that promises an ordered permutation of its input and nothing about
ties. Library sorts that are not stable, and database queries whose `ORDER BY`
does not name every column, both behave this way: for one input the result is
fixed, but nothing says which of two equal rows comes first.

`Sorter` packages such a sort together with the two facts a caller may rely
on, so a theorem that takes a `Sorter` holds for every way of breaking ties.
Iterating a hash map is the degenerate case, a sort under a comparison that
never separates two elements, which leaves only the permutation.

Two consequences are all the rest of the development uses. When no two
elements tie, the result does not depend on the order of the input
(`sort_eq_of_perm`); and the first element of the result that satisfies a
predicate is a least one among those that do (`find_sort_some`).

## Main definitions

* `StrictWeak`: A comparison whose ties are an equivalence.
* `Collation`: An order of texts.
* `Sorter`: A sort known only up to the arrangement of ties.
* `Sorter.insertion`: Insertion sort, as a `Sorter` that evaluates.

## Theorems

* `strictWeak_key`: Comparing by a key is a strict weak order.
* `Sorter.mem_sort`: Sorting keeps the members.
* `Sorter.sort_eq_of_perm`: Without ties the input order is irrelevant.
* `Sorter.sort_map`: Without ties, sorting commutes with a map.
* `Sorter.find_sort_some`: The first hit in a sorted list is a least hit.
* `Sorter.mem_take_sort`: What is among the first elements of a sorted list.
* `Sorter.find_sort_none`: No hit in the sorted list means no hit at all.
-/

/-- A comparison `less` read as a strict weak order: not being less is
    transitive, and two elements are never both less than the other. -/
structure StrictWeak {α : Type} (less : α → α → Bool) : Prop where
  trans : ∀ a b c, less b a = false → less c b = false → less c a = false
  total : ∀ a b, less b a = false ∨ less a b = false

/-- Comparing by a key into a linear order is a strict weak order. -/
theorem strictWeak_key {α κ : Type} [LinearOrder κ] (key : α → κ) :
    StrictWeak (fun a b => decide (key a < key b)) := by
  refine ⟨fun a b c hab hbc => ?_, fun a b => ?_⟩
  · simp only [decide_eq_false_iff_not, not_lt] at hab hbc ⊢
    exact le_trans hab hbc
  · simp only [decide_eq_false_iff_not, not_lt]
    exact le_total (key a) (key b)

/-- The reverse of a strict weak order is one. -/
theorem strictWeak_flip {α : Type} (less : α → α → Bool) (hw : StrictWeak less) :
    StrictWeak (fun a b => less b a) :=
  ⟨fun a b c hab hbc => hw.trans c b a hbc hab, fun a b => hw.total b a⟩

/-- What a strict weak order says of the images of a function is one. -/
theorem strictWeak_comap {α β : Type} (less : β → β → Bool) (hw : StrictWeak less) (f : α → β) :
    StrictWeak (fun a b => less (f a) (f b)) :=
  ⟨fun _ _ _ hab hbc => hw.trans _ _ _ hab hbc, fun _ _ => hw.total _ _⟩

/-- An order of texts. Texts it does not tell apart may be different. -/
structure Collation where
  less : String → String → Bool
  weak : StrictWeak less

/-- A sort known only up to how it arranges ties. -/
structure Sorter where
  sort : {α : Type} → (α → α → Bool) → List α → List α
  perm : ∀ {α : Type} (less : α → α → Bool) (l : List α), (sort less l).Perm l
  sorted : ∀ {α : Type} (less : α → α → Bool) (l : List α), StrictWeak less →
    (sort less l).Pairwise (fun a b => less b a = false)

namespace Sorter

/-- Insertion sort, the executable instance the concrete runs use. -/
def insertion : Sorter where
  sort less l := l.insertionSort (fun a b => less b a = false)
  perm less l := List.perm_insertionSort (fun a b => less b a = false) l
  sorted less l hw := by
    have htotal : Std.Total (fun a b => less b a = false) := ⟨hw.total⟩
    have htrans : IsTrans _ (fun a b => less b a = false) := ⟨hw.trans⟩
    exact List.pairwise_insertionSort (fun a b => less b a = false) l

variable (srt : Sorter)

@[simp] theorem mem_sort {α : Type} (less : α → α → Bool) (l : List α) (a : α) :
    a ∈ srt.sort less l ↔ a ∈ l :=
  (srt.perm less l).mem_iff

/-- Without ties the order of the input is irrelevant: there is only one
    sorted permutation, so two permutations of one list sort alike. -/
theorem sort_eq_of_perm {α : Type} (less : α → α → Bool) (hw : StrictWeak less)
    (l₁ l₂ : List α) (hp : l₁.Perm l₂)
    (hties : ∀ a ∈ l₁, ∀ b ∈ l₁, less a b = false → less b a = false → a = b) :
    srt.sort less l₁ = srt.sort less l₂ := by
  have hperm : (srt.sort less l₁).Perm (srt.sort less l₂) :=
    (srt.perm less l₁).trans (hp.trans (srt.perm less l₂).symm)
  refine List.Perm.eq_of_pairwise (fun a b ha hb hab hba => ?_)
    (srt.sorted less l₁ hw) (srt.sorted less l₂ hw) hperm
  have ha₁ : a ∈ l₁ := (srt.mem_sort less l₁ a).mp ha
  have hb₁ : b ∈ l₁ := hp.mem_iff.mpr ((srt.mem_sort less l₂ b).mp hb)
  exact hties a ha₁ b hb₁ hba hab

/-- Without ties, sorting commutes with a map that the comparisons do not
    notice. -/
theorem sort_map {α β : Type} (less : α → α → Bool) (less' : β → β → Bool)
    (hw : StrictWeak less) (hw' : StrictWeak less') (f : α → β)
    (hf : ∀ a b, less' (f a) (f b) = less a b) (l : List α)
    (hties : ∀ a ∈ l, ∀ b ∈ l, less a b = false → less b a = false → a = b) :
    srt.sort less' (l.map f) = (srt.sort less l).map f := by
  have hperm : (srt.sort less' (l.map f)).Perm ((srt.sort less l).map f) :=
    (srt.perm less' _).trans ((srt.perm less l).map f).symm
  have hsorted : ((srt.sort less l).map f).Pairwise (fun a b => less' b a = false) := by
    rw [List.pairwise_map]
    exact (srt.sorted less l hw).imp (fun h => (hf _ _).trans h)
  refine List.Perm.eq_of_pairwise (fun x y hx hy hxy hyx => ?_) (srt.sorted less' _ hw') hsorted
    hperm
  rcases List.mem_map.mp ((srt.mem_sort less' _ x).mp hx) with ⟨a, ha, rfl⟩
  rcases List.mem_map.mp hy with ⟨b, hb, rfl⟩
  rw [hf] at hxy hyx
  rw [hties a ha b ((srt.mem_sort less l b).mp hb) hyx hxy]

/-- The first hit in a sorted list is a hit of the original list that no
    other hit is less than. -/
theorem find_sort_some {α : Type} (less : α → α → Bool) (hw : StrictWeak less)
    (p : α → Bool) (l : List α) (a : α) (h : (srt.sort less l).find? p = some a) :
    a ∈ l ∧ p a = true ∧ ∀ b ∈ l, p b = true → b ≠ a → less b a = false := by
  refine ⟨(srt.mem_sort less l a).mp (List.mem_of_find?_eq_some h),
    List.find?_some h, fun b hb hpb hne => ?_⟩
  rcases List.find?_eq_some_iff_append.mp h with ⟨_, before, after, hsplit, hbefore⟩
  have hsorted := srt.sorted less l hw
  rw [hsplit] at hsorted
  have hmem : b ∈ before ++ a :: after := by
    rw [← hsplit]
    exact (srt.mem_sort less l b).mpr hb
  rcases List.mem_append.mp hmem with hin | hin
  · -- Nothing ahead of the first hit is a hit.
    exact absurd hpb (by simpa using hbefore b hin)
  · rcases List.mem_cons.mp hin with heq | hafter
    · exact absurd heq hne
    · exact List.rel_of_pairwise_cons (List.pairwise_append.mp hsorted).2.1 hafter

/-- An element is among the first ones of a sorted list when there is room for
    everything that does not come after it. -/
theorem mem_take_sort {α : Type} (less : α → α → Bool) (hw : StrictWeak less) (l : List α) (a : α)
    (ha : a ∈ l) (n : Nat) (hroom : (l.filter (fun b => !less a b)).length ≤ n) :
    a ∈ (srt.sort less l).take n := by
  rcases List.append_of_mem ((srt.mem_sort less l a).mpr ha) with ⟨before, after, hsplit⟩
  have hsorted := srt.sorted less l hw
  rw [hsplit, List.pairwise_append] at hsorted
  -- What comes before the element does not come after it, nor does it itself.
  have hbefore : ∀ b ∈ before ++ [a], (!less a b) = true := by
    intro b hb
    rcases List.mem_append.mp hb with hb | hb
    · rw [hsorted.2.2 b hb a List.mem_cons_self]
      rfl
    · have hself : less a a = false := (hw.total a a).elim id id
      rw [List.mem_singleton.mp hb, hself]
      rfl
  have hcount : (before ++ [a]).length ≤ n := by
    refine Nat.le_trans ?_ hroom
    rw [← ((srt.perm less l).filter _).length_eq, hsplit, List.append_cons before a after,
      List.filter_append, List.filter_eq_self.mpr hbefore]
    exact (List.sublist_append_left _ _).length_le
  rw [hsplit, List.append_cons before a after, List.take_append, List.take_of_length_le hcount]
  exact List.mem_append_left _ (List.mem_append_right _ List.mem_cons_self)

/-- No hit in the sorted list means no hit at all. -/
theorem find_sort_none {α : Type} (less : α → α → Bool) (p : α → Bool) (l : List α) :
    (srt.sort less l).find? p = none ↔ ∀ a ∈ l, p a = false := by
  simp only [List.find?_eq_none, mem_sort, Bool.not_eq_true]

end Sorter
