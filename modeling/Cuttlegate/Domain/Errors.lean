import Mathlib.Tactic.Common

/-!
# Errors and Checks

The errors the domain and the services return, and the shape of the checks
that return them.

A check in the source is a guard, `if cond { return err }`, and a validation
is a sequence of guards. `refuseIf` is one guard; `bind_unit_ok` says that a
sequence passes exactly when each guard does, which is how every validation
in the development is read back.

## Main definitions

* `Err`: The errors a service may return.
* `Time`: A point in time.
* `refuseIf`: One guard of a check.

## Theorems

* `refuseIf_ok`: A guard passes when its condition is off.
* `bind_unit_ok`: A sequence passes when each of its guards does.
-/

namespace Cuttlegate

/-- The errors a service may return. `internal` stands for every failure that
    is not one of the domain's own, such as a database error, and `panic` for
    a run-time panic, which ends a request the same way. -/
inductive Err where
  | notFound
  | conflict
  | lastAdmin
  | immutableVariants
  | defaultVariant
  | lastVariant
  | priorityConflict
  | keyRevoked
  | variantInUse
  | forbidden
  | validation (field message : String)
  | badRequest (message : String)
  | internal
  | panic
  deriving DecidableEq, Repr

/-- A point in time, counted from some fixed origin. -/
abbrev Time := Nat

/-- One guard of a check: refuse with `e` when the condition is on. -/
def refuseIf (c : Prop) [Decidable c] (e : Err) : Except Err Unit :=
  if c then .error e else .ok ()

@[simp] theorem refuseIf_ok (c : Prop) [Decidable c] (e : Err) :
    refuseIf c e = .ok () ↔ ¬ c := by
  unfold refuseIf
  by_cases hc : c
  · rw [if_pos hc]
    exact ⟨fun h => (nomatch h), fun h => absurd hc h⟩
  · rw [if_neg hc]
    exact ⟨fun _ => hc, fun _ => rfl⟩

@[simp] theorem bind_unit_ok {α : Type} (x : Except Err Unit) (rest : Unit → Except Err α) (a : α) :
    (x >>= rest) = .ok a ↔ x = .ok () ∧ rest () = .ok a := by
  cases x with
  | error e => simp only [bind, Except.bind, reduceCtorEq, false_and]
  | ok u => simp only [bind, Except.bind, true_and]

end Cuttlegate
