import Cuttlegate.Domain.Errors
import Mathlib.Data.List.Basic

/-!
# Targeting Rules

A rule attached to a flag in one environment: its conditions, the variant or
the weighted rollout it serves, and the check it passes before it is stored.

As for flags, the check is kept in the order and with the messages of the
source, and `Rule.WellFormed` says what it amounts to. Rollout weights are
machine integers and their total wraps around, so a total of one hundred does
not by itself bound the individual weights.

## Main definitions

* `Operator`: The nine operators, and an unsupported one.
* `Condition`, `RolloutEntry`, `Rule`: A rule and its parts.
* `Condition.validate`, `Rule.validate`: The checks, as the source runs them.
* `rolloutTotal`: The wrapped sum of the weights.
* `Condition.WellFormed`, `Rule.WellFormed`: What the checks amount to.

## Theorems

* `Condition.validate_ok_iff`: A condition passes when it is well formed.
* `checkConditions_ok_iff`: The loop over the conditions checks each of them.
* `checkRollout_ok_iff`: The loop over a rollout checks entries and total.
* `Rule.validate_ok_iff`: A rule passes its check when it is well formed.
-/

namespace Cuttlegate

/-- A comparison operator. The source's type is a string, so a value outside
    the nine constants is possible and is kept as `unsupported`. -/
inductive Operator where
  | eq
  | neq
  | contains
  | startsWith
  | endsWith
  | isIn
  | notIn
  | inSegment
  | notInSegment
  | unsupported (name : String)
  deriving DecidableEq, Repr

/-- The operator as the source spells it. -/
def Operator.text : Operator → String
  | eq => "eq"
  | neq => "neq"
  | contains => "contains"
  | startsWith => "starts_with"
  | endsWith => "ends_with"
  | isIn => "in"
  | notIn => "not_in"
  | inSegment => "in_segment"
  | notInSegment => "not_in_segment"
  | unsupported name => name

/-- The operators that require exactly one value. -/
def scalarOperators : List Operator :=
  [.eq, .neq, .contains, .startsWith, .endsWith, .inSegment, .notInSegment]

/-- The operators that require one or more values. -/
def listOperators : List Operator := [.isIn, .notIn]

structure Condition where
  attr : String
  operator : Operator
  values : List String
  deriving DecidableEq, Repr

/-- Whether the condition looks at segments rather than at an attribute. -/
def Condition.isSegmentOp (c : Condition) : Bool :=
  c.operator == .inSegment || c.operator == .notInSegment

/-- The check on the number of values, which also rejects an operator that is
    in neither table. -/
def Condition.checkValues (c : Condition) : Except Err Unit :=
  if c.operator ∈ scalarOperators then
    refuseIf (c.values.length ≠ 1)
      (.validation "values" ("operator " ++ c.operator.text ++ " requires exactly one value"))
  else if c.operator ∈ listOperators then
    refuseIf (c.values.length = 0)
      (.validation "values" ("operator " ++ c.operator.text ++ " requires at least one value"))
  else .error (.validation "operator" ("unsupported operator: " ++ c.operator.text))

def Condition.validate (c : Condition) : Except Err Unit := do
  refuseIf (c.isSegmentOp = false ∧ c.attr = "") (.validation "attribute" "must not be empty")
  c.checkValues

/-- What the check of a condition amounts to. -/
structure Condition.WellFormed (c : Condition) : Prop where
  attr : c.isSegmentOp = true ∨ c.attr ≠ ""
  supported : c.operator ∈ scalarOperators ∨ c.operator ∈ listOperators
  scalar : c.operator ∈ scalarOperators → ∃ v, c.values = [v]
  list : c.operator ∈ listOperators → c.values ≠ []

structure RolloutEntry where
  variantKey : String
  weight : Int64
  deriving DecidableEq, Repr

structure Rule where
  id : String
  flagID : String
  environmentID : String
  name : String
  priority : Int
  conditions : List Condition
  variantKey : String
  rollout : List RolloutEntry
  enabled : Bool
  createdAt : Time
  deriving DecidableEq, Repr

/-- The loop over the rollout entries, with the running total. -/
def checkRollout (total : Int64) : List RolloutEntry → Except Err Unit
  | [] => refuseIf (total ≠ 100) (.validation "rollout" "rollout weights must sum to 100")
  | e :: es => do
      refuseIf (e.variantKey = "")
        (.validation "rollout" "each rollout entry must have a non-empty variant key")
      refuseIf (e.weight < 1)
        (.validation "rollout" "each rollout entry weight must be at least 1")
      checkRollout (total + e.weight) es

/-- The loop over the conditions, which stops at the first bad one. -/
def checkConditions : List Condition → Except Err Unit
  | [] => .ok ()
  | c :: cs => do
      c.validate
      checkConditions cs

/-- The check on what the rule serves: its rollout if it has one, and its
    variant otherwise. -/
def Rule.checkServed (r : Rule) : Except Err Unit :=
  if r.rollout.length > 0 then checkRollout 0 r.rollout
  else refuseIf (r.variantKey = "") (.validation "variantKey" "must not be empty")

def Rule.validate (r : Rule) : Except Err Unit := do
  refuseIf (r.name.utf8ByteSize > 255) (.validation "name" "must not exceed 255 characters")
  refuseIf (r.conditions.length = 0)
    (.validation "conditions" "rule must have at least one condition")
  r.checkServed
  checkConditions r.conditions

/-- The wrapped sum of the weights, starting from `total`. -/
def rolloutTotal (total : Int64) (entries : List RolloutEntry) : Int64 :=
  entries.foldl (fun acc e => acc + e.weight) total

/-- What the check of a rule amounts to. -/
structure Rule.WellFormed (r : Rule) : Prop where
  nameLength : r.name.utf8ByteSize ≤ 255
  conditions : r.conditions ≠ []
  entries : ∀ e ∈ r.rollout, e.variantKey ≠ "" ∧ ¬ e.weight < 1
  total : r.rollout ≠ [] → rolloutTotal 0 r.rollout = 100
  variantKey : r.rollout = [] → r.variantKey ≠ ""
  wellFormed : ∀ c ∈ r.conditions, c.WellFormed

theorem Condition.validate_ok_iff (c : Condition) : c.validate = .ok () ↔ c.WellFormed := by
  have hattr : ¬ (c.isSegmentOp = false ∧ c.attr = "") ↔
      (c.isSegmentOp = true ∨ c.attr ≠ "") := by
    cases c.isSegmentOp <;> simp
  unfold Condition.validate Condition.checkValues
  rw [bind_unit_ok, refuseIf_ok, hattr]
  by_cases hscalar : c.operator ∈ scalarOperators
  · have hlist : c.operator ∉ listOperators := by
      intro hmem
      rcases List.mem_pair.mp hmem with h | h <;> rw [h] at hscalar <;> revert hscalar <;> decide
    rw [if_pos hscalar, refuseIf_ok, not_not, List.length_eq_one_iff]
    exact ⟨fun h => ⟨h.1, .inl hscalar, fun _ => h.2, fun hmem => absurd hmem hlist⟩,
      fun h => ⟨h.attr, h.scalar hscalar⟩⟩
  · rw [if_neg hscalar]
    by_cases hlist : c.operator ∈ listOperators
    · rw [if_pos hlist, refuseIf_ok, List.length_eq_zero_iff]
      exact ⟨fun h => ⟨h.1, .inr hlist, fun hmem => absurd hmem hscalar, fun _ => h.2⟩,
        fun h => ⟨h.attr, h.list hlist⟩⟩
    · rw [if_neg hlist]
      exact ⟨fun h => (nomatch h.2), fun h => absurd h.supported (not_or.mpr ⟨hscalar, hlist⟩)⟩

theorem checkConditions_ok_iff (cs : List Condition) :
    checkConditions cs = .ok () ↔ ∀ c ∈ cs, c.WellFormed := by
  induction cs with
  | nil => simp [checkConditions]
  | cons c cs ih =>
      rw [checkConditions, bind_unit_ok, Condition.validate_ok_iff, ih, List.forall_mem_cons]

theorem checkRollout_ok_iff (total : Int64) (entries : List RolloutEntry) :
    checkRollout total entries = .ok () ↔
      (∀ e ∈ entries, e.variantKey ≠ "" ∧ ¬ e.weight < 1) ∧ rolloutTotal total entries = 100 := by
  induction entries generalizing total with
  | nil => simp [checkRollout, rolloutTotal]
  | cons e es ih =>
      rw [checkRollout, bind_unit_ok, bind_unit_ok, refuseIf_ok, refuseIf_ok,
        ih (total + e.weight), List.forall_mem_cons, rolloutTotal, rolloutTotal, List.foldl_cons]
      simp only [and_assoc, ne_eq]

/-- A rule passes its check exactly when it is well formed. -/
theorem Rule.validate_ok_iff (r : Rule) : r.validate = .ok () ↔ r.WellFormed := by
  unfold Rule.validate Rule.checkServed
  simp only [bind_unit_ok, refuseIf_ok, checkConditions_ok_iff, Nat.not_lt,
    List.length_eq_zero_iff]
  by_cases hroll : r.rollout = []
  · rw [if_neg (by simp [hroll]), refuseIf_ok]
    constructor
    · rintro ⟨hname, hconds, hkey, hwf⟩
      exact ⟨hname, hconds, by simp [hroll], fun h => absurd hroll h, fun _ => hkey, hwf⟩
    · intro h
      exact ⟨h.nameLength, h.conditions, h.variantKey hroll, h.wellFormed⟩
  · rw [if_pos (List.length_pos_iff.mpr hroll), checkRollout_ok_iff]
    constructor
    · rintro ⟨hname, hconds, ⟨hentries, htotal⟩, hwf⟩
      exact ⟨hname, hconds, hentries, fun _ => htotal, fun h => absurd h hroll, hwf⟩
    · intro h
      exact ⟨h.nameLength, h.conditions, ⟨h.entries, h.total hroll⟩, h.wellFormed⟩

end Cuttlegate
