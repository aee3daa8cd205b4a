import Mathlib.Data.List.Forall2
import Mathlib.Data.List.Nodup

/-!
# Rows of a Table

A table is a list of rows. An update rewrites the rows a predicate selects, a
delete drops them. Given a notion of which rows are one's own, the first
results say exactly when such a statement leaves all foreign rows alone: when
every selected row that it changes is one's own.

Two tables that agree on the rows of a larger selection agree on a smaller one,
and a lookup by a unique key finds the row that has it. A unique column stays
unique when a row with a new value is inserted, and when an update does not
touch it.

## Theorems

* `update_foreign_iff`: Updates.
* `delete_foreign_iff`: Deletes.
* `filter_congr`, `find_congr`: Selections from tables that agree.
* `find_unique_iff`: Lookups by a unique key.
* `kept_id`: Deletes by a unique key.
* `nodup_insert`, `nodup_update`: A column stays unique.
* `forall₂_mem_right`: Partners in lists related row by row.
-/

namespace Rows

variable {α β : Type}

/-- An update leaves foreign rows alone exactly when each selected row is left
    as it was or is one's own. Updating twice is updating once, and ownership
    does not change with the update. -/
theorem update_foreign_iff (rows : List α) (hit : α → Bool) (f : α → α) (own : α → Prop)
    (hidem : ∀ a, f (f a) = f a) (hown : ∀ a, own (f a) ↔ own a) :
    (∀ a, ¬ own a → (a ∈ rows.map (fun a => if hit a then f a else a) ↔ a ∈ rows)) ↔
      ∀ a ∈ rows, hit a = true → f a ≠ a → own a := by
  constructor
  · intro hframe a ha hhit hchange
    by_contra hforeign
    rcases List.mem_map.mp ((hframe a hforeign).mpr ha) with ⟨b, _, hb⟩
    by_cases hhitb : hit b = true
    · -- A row that the update produced is one it does not change.
      rw [if_pos hhitb] at hb
      apply hchange
      rw [← hb, hidem]
    · rw [if_neg hhitb] at hb
      rw [hb] at hhitb
      exact hhitb hhit
  · intro hsel a hforeign
    rw [List.mem_map]
    constructor
    · rintro ⟨b, hb, hba⟩
      by_cases hhit : hit b = true
      · rw [if_pos hhit] at hba
        have hforeignb : ¬ own b := by
          rw [← hown b, hba]
          exact hforeign
        have hsame : f b = b := by
          by_contra hchange
          exact hforeignb (hsel b hb hhit hchange)
        rw [← hba, hsame]
        exact hb
      · rw [if_neg hhit] at hba
        rw [← hba]
        exact hb
    · intro ha
      refine ⟨a, ha, ?_⟩
      by_cases hhit : hit a = true
      · rw [if_pos hhit]
        by_contra hchange
        exact hforeign (hsel a ha hhit hchange)
      · rw [if_neg hhit]

/-- A delete leaves foreign rows alone exactly when each selected row is one's
    own. -/
theorem delete_foreign_iff (rows : List α) (hit : α → Bool) (own : α → Prop) :
    (∀ a, ¬ own a → (a ∈ rows.filter (fun a => !hit a) ↔ a ∈ rows)) ↔
      ∀ a ∈ rows, hit a = true → own a := by
  constructor
  · intro hframe a ha hhit
    by_contra hforeign
    have hkept := List.of_mem_filter ((hframe a hforeign).mpr ha)
    rw [hhit] at hkept
    exact Bool.false_ne_true hkept
  · intro hsel a hforeign
    rw [List.mem_filter]
    refine ⟨fun h => h.1, fun ha => ⟨ha, ?_⟩⟩
    cases hhit : hit a with
    | false => rfl
    | true => exact absurd (hsel a ha hhit) hforeign

/-- Tables that agree on a selection agree on what is selected from it. -/
theorem filter_congr (q p : α → Bool) (l l' : List α) (hsub : ∀ a, p a = true → q a = true)
    (hsame : l'.filter q = l.filter q) : l'.filter p = l.filter p := by
  have hall : ∀ l : List α, (l.filter q).filter p = l.filter p := by
    intro l
    rw [List.filter_filter]
    refine List.filter_congr (fun a _ => ?_)
    cases hp : p a with
    | false => rfl
    | true => rw [hsub a hp, Bool.and_true]
  rw [← hall l', hsame, hall l]

/-- Looking for a row among those selected is looking for it among all. -/
theorem find_congr (q p : α → Bool) (l l' : List α) (hsub : ∀ a, p a = true → q a = true)
    (hsame : l'.filter q = l.filter q) : l'.find? p = l.find? p := by
  rw [← List.head?_filter, ← List.head?_filter, filter_congr q p l l' hsub hsame]

/-- The row a unique key finds is the row that has it. -/
theorem find_unique_iff (p : α → Bool) (l : List α)
    (hone : ∀ a ∈ l, ∀ b ∈ l, p a = true → p b = true → a = b) (a : α) :
    l.find? p = some a ↔ a ∈ l ∧ p a = true := by
  constructor
  · intro hfind
    exact ⟨List.mem_of_find?_eq_some hfind, List.find?_some hfind⟩
  · rintro ⟨ha, hp⟩
    cases hfind : l.find? p with
    | none => exact absurd hp (List.find?_eq_none.mp hfind a ha)
    | some b =>
        rw [hone b (List.mem_of_find?_eq_some hfind) a ha (List.find?_some hfind) hp]

/-- With unique ids, what a delete keeps does not share an id with what it
    drops. -/
theorem kept_id (rows : List α) (id : α → β) (gone : α → Bool) (hids : (rows.map id).Nodup) (a : α)
    (ha : a ∈ rows.filter (fun a => !gone a)) : id a ∉ (rows.filter gone).map id := by
  intro hlost
  rcases List.mem_map.mp hlost with ⟨b, hb, hab⟩
  rw [List.mem_filter] at ha hb
  have hsame := List.inj_on_of_nodup_map hids hb.1 ha.1 hab
  rw [hsame] at hb
  rw [hb.2] at ha
  exact absurd ha.2 (by decide)

/-- A column stays unique when the inserted row has a new value in it. -/
theorem nodup_insert (col : α → β) (rows : List α) (a : α) (hfresh : ∀ b ∈ rows, col b ≠ col a)
    (h : (rows.map col).Nodup) : ((rows ++ [a]).map col).Nodup := by
  rw [List.map_append, List.map_singleton, List.nodup_append]
  refine ⟨h, by simp, fun x hx y hy => ?_⟩
  rcases List.mem_map.mp hx with ⟨b, hb, rfl⟩
  rw [List.mem_singleton.mp hy]
  exact hfresh b hb

/-- A column stays unique when the update leaves it alone. -/
theorem nodup_update (col : α → β) (rows : List α) (f : α → α) (hf : ∀ a, col (f a) = col a)
    (h : (rows.map col).Nodup) : ((rows.map f).map col).Nodup := by
  rw [List.map_map, show col ∘ f = col from funext hf]
  exact h

/-- Of two lists related row by row, every row of the second has its partner. -/
theorem forall₂_mem_right {R : α → β → Prop} {l : List α} {l' : List β}
    (h : List.Forall₂ R l l') (b : β) (hb : b ∈ l') : ∃ a ∈ l, R a b := by
  induction h with
  | nil => exact absurd hb List.not_mem_nil
  | cons hab _ ih =>
      rcases List.mem_cons.mp hb with rfl | hb
      · exact ⟨_, List.mem_cons_self, hab⟩
      · rcases ih hb with ⟨a, ha, hR⟩
        exact ⟨a, List.mem_cons_of_mem _ ha, hR⟩

end Rows
