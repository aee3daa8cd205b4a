import Mathlib.Data.List.Chain

/-!
# Ledgers of Keyed Values

A state holds a value for each key, and a ledger has a line for some of the
steps: the key that was changed, and its value before and after. The ledger is
kept when a line tells the truth about its step, and a step without a line
changes nothing.

Whether a step is booked is a matter of that step alone. What follows for a
whole run is that the lines about one key form a chain: the first starts from
the value at the beginning, each starts from the value the one before ended
with, and the last ends with the value at the end. Nothing is lost in between,
however many steps on other keys there are.

## Main definitions

* `Line`: An entry of the ledger.
* `Books`: A step and the line it leaves, if any.
* `Kept`: A run and the lines it leaves.

## Theorems

* `Kept.opening`: The first line about a key starts from the first value.
* `Kept.chain`: The lines about a key form a chain.
* `Kept.closing`: A run leaves the value that its last line about a key tells.
-/

namespace Ledger

variable {σ κ β : Type}

structure Line (κ β : Type) where
  key : κ
  before : β
  after : β
  deriving DecidableEq

/-- A step leaves a line that tells what it changed, or it changes nothing. -/
def Books (value : σ → κ → β) (s s' : σ) : Option (Line κ β) → Prop
  | some l => l.before = value s l.key ∧ l.after = value s' l.key ∧
      ∀ k, k ≠ l.key → value s' k = value s k
  | none => ∀ k, value s' k = value s k

/-- The lines of a run all of whose steps are booked. -/
inductive Kept (value : σ → κ → β) : σ → List (Line κ β) → σ → Prop
  | nil (s : σ) : Kept value s [] s
  | step (s s₁ s' : σ) (line : Option (Line κ β)) (lines : List (Line κ β))
      (hbooks : Books value s s₁ line) (hrest : Kept value s₁ lines s') :
      Kept value s (line.toList ++ lines) s'

variable [DecidableEq κ]

/-- The lines about one key. -/
def about (k : κ) (lines : List (Line κ β)) : List (Line κ β) :=
  lines.filter (fun l => l.key = k)

theorem about_cons_self (l : Line κ β) (lines : List (Line κ β)) :
    about l.key (l :: lines) = l :: about l.key lines := by
  simp [about]

theorem about_cons_other (k : κ) (l : Line κ β) (lines : List (Line κ β)) (hk : k ≠ l.key) :
    about k (l :: lines) = about k lines := by
  simp [about, Ne.symm hk]

variable {value : σ → κ → β} {s s' : σ} {lines : List (Line κ β)}

/-- The first line about a key starts from the value at the beginning. -/
theorem Kept.opening (k : κ) (h : Kept value s lines s') :
    ∀ l, (about k lines).head? = some l → l.before = value s k := by
  induction h with
  | nil s =>
      intro l hl
      simp [about] at hl
  | step s s₁ s' line lines hbooks _ ih =>
      intro l hl
      cases line with
      | none =>
          have hsame : value s₁ k = value s k := hbooks k
          rw [← hsame]
          exact ih l hl
      | some first =>
          rcases hbooks with ⟨hbefore, _, hframe⟩
          by_cases hk : k = first.key
          · subst hk
            rw [Option.toList_some, List.singleton_append, about_cons_self, List.head?_cons,
              Option.some.injEq] at hl
            rw [← hl]
            exact hbefore
          · rw [Option.toList_some, List.singleton_append, about_cons_other k first lines hk] at hl
            rw [← hframe k hk]
            exact ih l hl

/-- In the lines about one key, each starts from the value the one before
    ended with. -/
theorem Kept.chain (k : κ) (h : Kept value s lines s') :
    (about k lines).IsChain (fun a b => b.before = a.after) := by
  induction h with
  | nil s => simp [about]
  | step s s₁ s' line lines hbooks hrest ih =>
      cases line with
      | none => exact ih
      | some first =>
          rcases hbooks with ⟨_, hafter, _⟩
          rw [Option.toList_some, List.singleton_append]
          by_cases hk : k = first.key
          · subst hk
            rw [about_cons_self, List.isChain_cons]
            refine ⟨fun next hnext => ?_, ih⟩
            rw [hafter]
            exact hrest.opening first.key next hnext
          · rw [about_cons_other k first lines hk]
            exact ih

/-- A run leaves a key with the value that the last line about it tells, or as
    it was when there is none. -/
theorem Kept.closing (k : κ) (h : Kept value s lines s') :
    value s' k = (((about k lines).getLast?).map (fun l => l.after)).getD (value s k) := by
  induction h with
  | nil s => simp [about]
  | step s s₁ s' line lines hbooks hrest ih =>
      cases line with
      | none =>
          have hsame : value s₁ k = value s k := hbooks k
          rw [← hsame]
          exact ih
      | some first =>
          rcases hbooks with ⟨_, hafter, hframe⟩
          rw [Option.toList_some, List.singleton_append]
          by_cases hk : k = first.key
          · subst hk
            rw [about_cons_self, List.getLast?_cons, ih, ← hafter]
            cases (about first.key lines).getLast? <;> simp
          · rw [about_cons_other k first lines hk, ← hframe k hk]
            exact ih

end Ledger
